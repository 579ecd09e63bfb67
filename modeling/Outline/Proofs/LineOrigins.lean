import Mathlib.Data.List.Forall2
import Outline.Proofs.SourceOrder

/-!
# Where lines come from

Each line of a summary stands for a node of the syntax tree or for a fact about the file, and the
wish for signatures changes only what is said of a node.

* `Origin` — what a line stands for;
* `Origin.line?` — the line that an origin gives, with signatures or without;
* `Summary.origins` — the origins of the lines of a source, found without asking for signatures;
* `Summary.map_line?_origins` — the lines of a summary are those of its origins, one for each;
* `Node.line?_prefix_line?` — the signature of a node stands behind all else in its line;
* `Summary.ofSource_signatures` — with signatures, a summary has the same lines, of which those of
  callables may go on.
-/

namespace Outline

/-! ### The line of a node -/

namespace Node

theorem labelled_append (label : String) (t more : Text) :
    labelled label (t ++ more) = labelled label t ++ more := by
  simp [labelled]

/-- Only callables have signatures. -/
theorem line?_of_ruleOf_ne {n : Node} (h : ruleOf n.kind ≠ .callable) (source : Text)
    (signatures : Bool) : n.line? source signatures = n.line? source false := by
  unfold line?
  split
  · rename_i hrule
    exact absurd hrule h
  all_goals rfl

theorem line?_of_callable {n : Node} (h : ruleOf n.kind = .callable) (source : Text)
    (signatures : Bool) : n.line? source signatures = (n.name? source).map fun name =>
      labelled (labelOf n.kind) (if signatures then name ++ n.signature source else name) := by
  simp only [line?, h, callable?, Option.map_map]
  rfl

/-- The line of a node goes on with its signature. -/
theorem line?_prefix_line? {n : Node} {source a b : Text} (ha : n.line? source false = some a)
    (hb : n.line? source true = some b) : a <+: b := by
  by_cases h : ruleOf n.kind = .callable
  · rw [line?_of_callable h] at ha hb
    obtain ⟨name, hname, rfl⟩ := Option.map_eq_some_iff.1 ha
    rw [hname] at hb
    cases hb
    exact ⟨n.signature source, (labelled_append _ _ _).symm⟩
  · rw [line?_of_ruleOf_ne h, ha] at hb
    cases hb
    exact List.prefix_refl a

theorem isSome_line?_eq (n : Node) (source : Text) (signatures : Bool) :
    (n.line? source signatures).isSome = (n.line? source false).isSome := by
  cases signatures with
  | false => rfl
  | true => exact n.isSome_line? source

end Node

/-! ### Origins -/

/-- What a line of a summary stands for. -/
inductive Origin where
  /-- A node of the syntax tree of a text. -/
  | node (text : Text) (n : Node)
  /-- A fact about the file, with its line. -/
  | fact (line : Text)

namespace Origin

/-- The line that an origin gives. -/
def line? (signatures : Bool) : Origin → Option Text
  | node text n => n.line? text signatures
  | fact line => some line

/-- The line of an origin goes on with its signature. -/
theorem line?_prefix {origin : Origin} {a b : Text} (ha : origin.line? false = some a)
    (hb : origin.line? true = some b) : a <+: b := by
  cases origin with
  | node text n => exact Node.line?_prefix_line? ha hb
  | fact line =>
    cases ha
    cases hb
    exact List.prefix_refl _

/-- Only the line of a callable depends on the wish for signatures. -/
theorem line?_eq_or_callable (origin : Origin) : origin.line? false = origin.line? true ∨
    ∃ text n, origin = .node text n ∧ ruleOf n.kind = .callable := by
  cases origin with
  | node text n =>
    by_cases h : ruleOf n.kind = .callable
    · exact Or.inr ⟨text, n, rfl, h⟩
    · exact Or.inl (Node.line?_of_ruleOf_ne h text true).symm
  | fact line => exact Or.inl rfl

end Origin

namespace Summary

/-- The nodes that have a line, each as an origin with its start byte. -/
def nodeOrigins (text : Text) (nodes : List Node) : List (Nat × Origin) :=
  (nodes.filter fun n => (n.line? text false).isSome).map fun n => (n.start, .node text n)

/-- The origins of the lines of a component. -/
def componentOrigins (l : Language) (source : Text) (tree : Option Node) (limit : Nat) :
    List Origin :=
  let facts := ComponentFacts.ofText source
  let methods := facts.methodLines.map (Prod.map id Origin.fact)
  let nodes := nodeOrigins (scriptText source) ((scriptCandidates l source tree).take limit)
  (facts.header.map Origin.fact ++ ((methods ++ nodes).mergeSort byNumber).map (·.2) ++
    facts.footer.map Origin.fact).take limit

/-- The origins of the lines of a source. -/
def origins (l : Language) (source : Text) (tree : Option Node) (limit : Nat) (calls : Bool) :
    List Origin :=
  if source.blank then []
  else match l.backend with
    | .grammar false => [.fact (notice l)]
    | .grammar true =>
        (nodeOrigins source ((treeCandidates tree (l.kindsOfInterest calls)).take limit)).map (·.2)
    | .stylesheet => (Stylesheet.lines source limit).map Origin.fact
    | .component => componentOrigins l source tree limit

/-! ### The lines of the origins -/

theorem map_line?_fact (signatures : Bool) (lines : List Text) :
    (lines.map Origin.fact).map (Origin.line? signatures) = lines.map some := by
  rw [List.map_map]
  rfl

/-- The lines of nodes with their start bytes are those of the origins. -/
theorem map_line?_nodeOrigins (text : Text) (nodes : List Node) (signatures : Bool) :
    (nodeOrigins text nodes).map (Prod.map id (Origin.line? signatures)) =
      (nodes.filterMap (lineAt text signatures)).map (Prod.map id some) := by
  induction nodes with
  | nil => rfl
  | cons n nodes ih =>
    have hsome := n.isSome_line?_eq text signatures
    rw [nodeOrigins, List.filter_cons]
    cases hline : n.line? text signatures with
    | none =>
      rw [hline] at hsome
      rw [List.filterMap_cons_none (by rw [lineAt, hline]; rfl), if_neg (by simp [← hsome])]
      exact ih
    | some line =>
      rw [hline] at hsome
      rw [List.filterMap_cons_some (b := (n.start, line)) (by rw [lineAt, hline]; rfl),
        if_pos (by rw [← hsome]; rfl), List.map_cons, List.map_cons, List.map_cons, ← ih]
      simp [Origin.line?, hline, nodeOrigins]

/-- Entries that agree by their numbers and under a function agree in the same way when both are
sorted. -/
theorem map_mergeSort_congr {α β γ : Type} {f : α → γ} {g : β → γ} {xs : List (Nat × α)}
    {ys : List (Nat × β)} (h : xs.map (Prod.map id f) = ys.map (Prod.map id g)) :
    (xs.mergeSort byNumber).map (Prod.map id f) = (ys.mergeSort byNumber).map (Prod.map id g) := by
  have hf : (xs.mergeSort byNumber).map (Prod.map id f) =
      (xs.map (Prod.map id f)).mergeSort byNumber := List.map_mergeSort fun _ _ _ _ => rfl
  have hg : (ys.mergeSort byNumber).map (Prod.map id g) =
      (ys.map (Prod.map id g)).mergeSort byNumber := List.map_mergeSort fun _ _ _ _ => rfl
  rw [hf, hg, h]

theorem map_snd_congr {α β γ : Type} {f : α → γ} {g : β → γ} {xs : List (Nat × α)}
    {ys : List (Nat × β)} (h : xs.map (Prod.map id f) = ys.map (Prod.map id g)) :
    (xs.map (·.2)).map f = (ys.map (·.2)).map g := by
  have hsnd := congrArg (List.map Prod.snd) h
  rw [List.map_map, List.map_map] at hsnd ⊢
  exact hsnd

theorem map_line?_componentOrigins (l : Language) (source : Text) (tree : Option Node)
    (o : SummaryOptions) :
    (componentOrigins l source tree o.maxLines).map (Origin.line? o.signatures) =
      (componentLines l source tree o).map some := by
  have hentries : ((ComponentFacts.ofText source).methodLines.map (Prod.map id Origin.fact) ++
      nodeOrigins (scriptText source) ((scriptCandidates l source tree).take o.maxLines)).map
        (Prod.map id (Origin.line? o.signatures)) =
      ((ComponentFacts.ofText source).methodLines ++ scriptEntries l source tree o).map
        (Prod.map id some) := by
    rw [List.map_append, List.map_append, map_line?_nodeOrigins, List.map_map]
    rfl
  rw [componentLines_eq, componentOrigins, List.map_take, List.map_take, List.map_append,
    List.map_append, List.map_append, List.map_append, map_line?_fact, map_line?_fact,
    map_snd_congr (map_mergeSort_congr hentries)]

/-- **The lines of a summary are those of its origins**, with signatures or without. -/
theorem map_line?_origins (l : Language) (source : Text) (tree : Option Node)
    (o : SummaryOptions) :
    (origins l source tree o.maxLines o.includeCalls).map (Origin.line? o.signatures) =
      (ofSource l source tree o).map some := by
  unfold origins ofSource
  cases source.blank with
  | true => rfl
  | false =>
    simp only [Bool.false_eq_true, if_false]
    cases l.backend with
    | grammar available =>
      cases available with
      | true =>
        show _ = ((treeLines tree source (l.kindsOfInterest o.includeCalls) o).map (·.2)).map some
        rw [treeLines_eq]
        exact map_snd_congr (map_line?_nodeOrigins _ _ _)
      | false => rfl
    | stylesheet => exact map_line?_fact _ _
    | component => exact map_line?_componentOrigins l source tree o

/-! ### The nodes among the origins -/

theorem mem_of_mem_nodeOrigins {text text' : Text} {nodes : List Node} {n : Node} {k : Nat}
    (h : (k, Origin.node text n) ∈ nodeOrigins text' nodes) : n ∈ nodes := by
  obtain ⟨m, hm, heq⟩ := List.mem_map.1 h
  obtain ⟨-, hnode⟩ := Prod.mk.inj heq
  cases hnode
  exact (List.mem_filter.1 hm).1

theorem not_mem_map_fact {text : Text} {n : Node} {lines : List Text} :
    Origin.node text n ∉ lines.map Origin.fact := by
  intro h
  obtain ⟨line, -, heq⟩ := List.mem_map.1 h
  cases heq

theorem mem_of_mem_componentOrigins {l : Language} {source text : Text} {tree : Option Node}
    {limit : Nat} {n : Node} (h : .node text n ∈ componentOrigins l source tree limit) :
    n ∈ treeNodes tree := by
  rcases List.mem_append.1 (List.mem_of_mem_take h) with h | h
  · rcases List.mem_append.1 h with h | h
    · exact absurd h not_mem_map_fact
    · obtain ⟨⟨k, origin⟩, hentry, rfl⟩ := List.mem_map.1 h
      rcases List.mem_append.1 (List.mem_mergeSort.1 hentry) with hmethod | hnode
      · obtain ⟨method, -, heq⟩ := List.mem_map.1 hmethod
        cases heq
      · have hn := List.mem_of_mem_take (mem_of_mem_nodeOrigins hnode)
        exact (scriptCandidates_sublist l source tree).mem hn
  · exact absurd h not_mem_map_fact

/-- Every node that a line stands for is one of the tree. -/
theorem mem_treeNodes_of_mem_origins {l : Language} {source text : Text} {tree : Option Node}
    {limit : Nat} {calls : Bool} {n : Node} (h : .node text n ∈ origins l source tree limit calls) :
    n ∈ treeNodes tree := by
  unfold origins at h
  split at h
  · cases h
  split at h
  · exact absurd (List.mem_singleton.1 h) (by simp)
  · obtain ⟨⟨k, origin⟩, hentry, rfl⟩ := List.mem_map.1 h
    have hn := List.mem_of_mem_take (mem_of_mem_nodeOrigins hentry)
    exact (treeCandidates_sublist tree _).mem hn
  · exact absurd h not_mem_map_fact
  · exact mem_of_mem_componentOrigins h

/-! ### Signatures -/

/-- Lists that two functions find for one list are related element by element. -/
theorem forall₂_of_map_eq {α β : Type} {R : β → β → Prop} {f g : α → Option β} {os : List α}
    {xs ys : List β} (hx : os.map f = xs.map some) (hy : os.map g = ys.map some)
    (h : ∀ o a b, f o = some a → g o = some b → R a b) : List.Forall₂ R xs ys := by
  induction os generalizing xs ys with
  | nil =>
    rw [List.map_nil, eq_comm, List.map_eq_nil_iff] at hx hy
    subst hx hy
    exact List.Forall₂.nil
  | cons o os ih =>
    obtain ⟨x, xs, rfl, hfx, hxs⟩ := List.map_eq_cons_iff.1 hx.symm
    obtain ⟨y, ys, rfl, hgy, hys⟩ := List.map_eq_cons_iff.1 hy.symm
    exact List.Forall₂.cons (h o x y hfx.symm hgy.symm) (ih hxs.symm hys.symm)

/-- What a function finds for a list, at one place. -/
theorem getElem?_of_map_eq {α β : Type} {f : α → Option β} {os : List α} {xs : List β}
    (h : os.map f = xs.map some) (i : Nat) : xs[i]? = os[i]?.bind f := by
  have hi : (os.map f)[i]? = (xs.map some)[i]? := by rw [h]
  rw [List.getElem?_map, List.getElem?_map] at hi
  cases hx : xs[i]? with
  | none =>
    rw [hx, Option.map_none, Option.map_eq_none_iff] at hi
    rw [hi, Option.bind_none]
  | some x =>
    rw [hx] at hi
    obtain ⟨o, ho, hf⟩ := Option.map_eq_some_iff.1 hi
    rw [ho, Option.bind_some, hf]

/-- **The wish for signatures only extends lines.**  With and without it the lines of a summary
have the same origins; each line begins as it is without signatures, and goes on only if it is that
of a callable in the tree. -/
theorem ofSource_signatures (l : Language) (source : Text) (tree : Option Node)
    (o : SummaryOptions) :
    let plain := ofSource l source tree { o with signatures := false }
    let signed := ofSource l source tree { o with signatures := true }
    let os := origins l source tree o.maxLines o.includeCalls
    os.map (Origin.line? false) = plain.map some ∧
      os.map (Origin.line? true) = signed.map some ∧
      List.Forall₂ (· <+: ·) plain signed ∧
      ∀ i : Nat, plain[i]? = signed[i]? ∨ ∃ text n, os[i]? = some (.node text n) ∧
        n ∈ treeNodes tree ∧ ruleOf n.kind = .callable := by
  intro plain signed os
  have hplain : os.map (Origin.line? false) = plain.map some :=
    map_line?_origins l source tree { o with signatures := false }
  have hsigned : os.map (Origin.line? true) = signed.map some :=
    map_line?_origins l source tree { o with signatures := true }
  refine ⟨hplain, hsigned, forall₂_of_map_eq hplain hsigned fun _ _ _ => Origin.line?_prefix, ?_⟩
  intro i
  rw [getElem?_of_map_eq hplain, getElem?_of_map_eq hsigned]
  cases ho : os[i]? with
  | none => exact Or.inl rfl
  | some origin =>
    obtain heq | ⟨text, n, rfl, hrule⟩ := origin.line?_eq_or_callable
    · exact Or.inl heq
    · exact Or.inr ⟨text, n, rfl, mem_treeNodes_of_mem_origins (List.mem_of_getElem? ho), hrule⟩

end Summary

end Outline
