import Outline.Line
import Outline.Proofs.Words

/-!
# Chains of declarators

Some grammars keep the name of a function on a declarator far below it, and its parameters on the one
right above the name.  Both are looked for down the chain, but not in the same way: a declarator is asked
for its name when it is reached, and for a field when it is left.

* `Node.Declares` — the way down to the first declarator that is a name;
* `Node.Declares.exists_rest` — the declarators down to some depth are the first ones on this way;
* `findSome?_take_append` — the one that answers is found if it is among them;
* `Node.Declares.findSome?_nameHolder?`, `Node.Declares.childAlong?_eq` — hence the name is found, and so
  is a field of the node right above it, if and only if there are few enough declarators;
* `Node.line?_of_declares` — what follows for the line of a callable.

The two bounds differ by one, and so do the two look-ups: both reach six declarators.
-/

namespace Outline

/-- Of the first `m` items of a list, the first one that answers is found if it is among them. -/
theorem findSome?_take_append {α β : Type} {f : α → Option β} {before : List α} {x : α} {y : β}
    (hbefore : ∀ a ∈ before, f a = none) (hx : f x = some y) (after : List α) (m : ℕ) :
    ((before ++ x :: after).take m).findSome? f = if before.length < m then some y else none := by
  induction before generalizing m with
  | nil =>
    cases m with
    | zero => rfl
    | succ m => rw [List.nil_append, List.take_succ_cons, List.findSome?_cons, hx]; rfl
  | cons a before ih =>
    obtain ⟨ha, hbefore⟩ := List.forall_mem_cons.1 hbefore
    cases m with
    | zero => rfl
    | succ m =>
      rw [List.cons_append, List.take_succ_cons, List.findSome?_cons, ha, List.length_cons]
      simp only [ih hbefore m, Nat.add_lt_add_iff_right]

namespace Node

variable {n last : Node} {between : List Node} {source : Text}

/-! ### The chain -/

/-- Whether `last` is the first declarator below `n` that is a name, and `between` are those on the way
to it. -/
inductive Declares : (n : Node) → (between : List Node) → (last : Node) → Prop
  | name {n last : Node} (here : n.child? "declarator" = some last) (named : last.kind ∈ identifierKinds) :
      Declares n [] last
  | further {n d last : Node} {between : List Node} (here : n.child? "declarator" = some d)
      (other : d.kind ∉ identifierKinds) (unnamed : d.child? "name" = none)
      (below : Declares d between last) : Declares n (d :: between) last

theorem length_declarators_le (depth : ℕ) (n : Node) : (n.declarators depth).length ≤ depth := by
  induction depth generalizing n with
  | zero => exact Nat.le_refl 0
  | succ depth ih =>
    rw [declarators]
    split
    · exact Nat.succ_le_succ (ih _)
    · exact Nat.zero_le _

/-- The declarators down to some depth are the first ones on the way to the name and behind it. -/
theorem Declares.exists_rest (h : n.Declares between last) (depth : ℕ) :
    ∃ rest, n.declarators depth = (between ++ last :: rest).take depth := by
  induction h generalizing depth with
  | @name n last here named =>
    cases depth with
    | zero => exact ⟨[], rfl⟩
    | succ depth =>
      refine ⟨last.declarators depth, ?_⟩
      rw [declarators, here, List.nil_append, List.take_succ_cons,
        List.take_of_length_le (length_declarators_le depth last)]
  | @further n d last between here other unnamed below ih =>
    cases depth with
    | zero => exact ⟨[], rfl⟩
    | succ depth =>
      obtain ⟨rest, hrest⟩ := ih depth
      refine ⟨rest, ?_⟩
      rw [declarators, here, List.cons_append, List.take_succ_cons, ← hrest]

theorem Declares.nameHolder?_between (h : n.Declares between last) :
    ∀ d ∈ between, nameHolder? d = none := by
  induction h with
  | name => exact List.forall_mem_nil _
  | @further n d last between here other unnamed below ih =>
    have hd : nameHolder? d = none := by
      rw [nameHolder?, if_neg (by simpa using other), unnamed]
    exact List.forall_mem_cons.2 ⟨hd, ih⟩

theorem Declares.nameHolder?_last (h : n.Declares between last) : nameHolder? last = some last := by
  induction h with
  | name here named => rw [nameHolder?, if_pos (by simpa using named)]
  | further here other unnamed below ih => exact ih

/-! ### The two look-ups -/

/-- **The name is found down to a depth** if there are not too many declarators above it. -/
theorem Declares.findSome?_nameHolder? (h : n.Declares between last) (depth : ℕ) :
    (n.declarators depth).findSome? nameHolder? = if between.length < depth then some last else none := by
  obtain ⟨rest, hrest⟩ := h.exists_rest depth
  rw [hrest, findSome?_take_append h.nameHolder?_between h.nameHolder?_last]

section

variable {above : List Node} {holder child : Node} {field : String}

/-- **A field of the node right above the name is found** under the same condition as the name. -/
theorem Declares.childAlong?_eq (h : n.Declares between last) (hsplit : n :: between = above ++ [holder])
    (habove : ∀ d ∈ above, d.child? field = none) (hholder : holder.child? field = some child) :
    n.childAlong? field = if between.length < declaratorDepth then some child else none := by
  obtain ⟨rest, hrest⟩ := h.exists_rest (declaratorDepth - 1)
  have hlength : above.length = between.length := by
    have hlengths := congrArg List.length hsplit
    rw [List.length_cons, List.length_append, List.length_singleton] at hlengths
    omega
  -- with the node itself in front, one node more is asked than declarators are
  have hasked : n :: n.declarators (declaratorDepth - 1) =
      (above ++ holder :: (last :: rest)).take declaratorDepth := by
    rw [hrest, ← List.singleton_append (l := last :: rest), ← List.append_assoc, ← hsplit]
    rfl
  rw [childAlong?, hasked, findSome?_take_append habove hholder, hlength]

end

/-! ### Lines -/

theorem clean?_of_text? {name : Text} (h : n.text? source = some name) (hsolid : name.blank = false) :
    n.clean? source = some name.collapse := by
  have hne : name.collapse ≠ [] := by
    intro hnil
    rw [Text.collapse_eq_nil_iff.1 hnil] at hsolid
    cases hsolid
  rw [clean?, h, Option.bind_some, Text.nonEmpty?, if_neg hne]

theorem specNames_eq_nil (h : ∀ c ∈ n.children, c.kind ∉ specKinds) (source : Text) :
    n.specNames source = [] := by
  have hnone : (n.namedChildren.filter fun c => specKinds.contains c.kind) = [] := by
    refine List.filter_eq_nil_iff.2 fun c hc => ?_
    simpa using h c (List.mem_filter.1 hc).1
  rw [specNames, hnone, List.filterMap_nil]

/-- A parameter list is shown from its parenthesis on, also where it is cut or had none. -/
theorem head?_writtenParameters (t : Text) : (writtenParameters t).head? = some '(' := by
  have hcut : ∀ s : Text, s.head? = some '(' → (s.truncate signatureLimit).head? = some '(' := by
    intro s hs
    obtain ⟨r, rfl⟩ := List.head?_eq_some_iff.1 hs
    rw [Text.truncate]
    split <;> rfl
  rw [writtenParameters]
  apply hcut
  split
  · assumption
  · rfl

/-- What a signature shows behind the parameters: the result, if there is one. -/
def shownResult (n : Node) (source : Text) : Text :=
  ((((n.childAlong? "return_type").or (n.child? "result")).bind (·.text? source)).map
    writtenResult).getD []

/-- **Name and parameters are looked for equally deep.**  A callable without a name of its own, whose name
`last` stands below the declarators `between`, and whose parameters are a field of the node right above
that name, has a line with both if there are at most six declarators, the name among them.  With more of
them it has no line, unless it wraps a spec that has a name.  So the name is found if and only if the
parameters are. -/
theorem line?_of_declares {above : List Node} {holder list : Node} {name parameters : Text}
    (hcallable : ruleOf n.kind = .callable) (hunnamed : n.child? "name" = none)
    (hchain : n.Declares between last) (hname : last.text? source = some name)
    (hsolid : name.blank = false) (hsplit : n :: between = above ++ [holder])
    (habove : ∀ d ∈ above, d.child? "parameters" = none)
    (hholder : holder.child? "parameters" = some list) (hlist : list.text? source = some parameters) :
    (between.length + 1 ≤ 6 →
      n.line? source true = some (labelled (labelOf n.kind)
          (name.collapse ++ (writtenParameters parameters ++ n.shownResult source))) ∧
        (writtenParameters parameters).head? = some '(') ∧
      (6 < between.length + 1 → (∀ c ∈ n.children, c.kind ∉ specKinds) →
        n.line? source true = none) ∧
      ((n.declarators declaratorDepth).findSome? nameHolder? = some last ↔
        n.childAlong? "parameters" = some list) := by
  have hholds := hchain.findSome?_nameHolder? declaratorDepth
  have hfield := hchain.childAlong?_eq hsplit habove hholder
  have hline : n.line? source true =
      (n.callable? source true).map (labelled (labelOf n.kind)) := by
    rw [line?, hcallable]
  refine ⟨fun hfew => ?_, fun hmany hspecs => ?_, ?_⟩
  · have hlt : between.length < declaratorDepth := hfew
    rw [if_pos hlt] at hholds hfield
    have hfound : n.name? source = some name.collapse := by
      rw [name?, hunnamed, hholds]
      exact clean?_of_text? hname hsolid
    have hsignature : n.signature source = writtenParameters parameters ++ n.shownResult source := by
      rw [signature, hfield, Option.bind_some, hlist]
      rfl
    refine ⟨?_, head?_writtenParameters parameters⟩
    rw [hline, callable?, hfound, Option.map_some, if_pos rfl, hsignature, Option.map_some]
  · have hnot : ¬between.length < declaratorDepth := Nat.not_lt.2 (Nat.lt_succ_iff.1 hmany)
    rw [if_neg hnot] at hholds
    have hnone : n.name? source = none := by
      rw [name?, hunnamed, hholds, specNames_eq_nil hspecs]
      rfl
    rw [hline, callable?, hnone, Option.map_none, Option.map_none]
  · rw [hholds, hfield]
    split <;> simp

/-- The name of a function that gives back a pointer. -/
def pointerName : Node := ⟨3, "identifier", some "declarator", true, 10, 11, []⟩

/-- Its declarator below some pointers, with the name and the parameters at the lowest one. -/
def pointed : (pointers : ℕ) → Node
  | 0 => ⟨2, "function_declarator", some "declarator", true, 10, 18,
      [pointerName, ⟨4, "parameter_list", some "parameters", true, 11, 18, []⟩]⟩
  | pointers + 1 => ⟨1, "pointer_declarator", some "declarator", true, 5, 18, [pointed pointers]⟩

/-- The whole function. -/
def pointing (pointers : ℕ) : Node :=
  ⟨0, "function_definition", none, true, 0, 21,
    [⟨5, "primitive_type", some "type", true, 0, 4, []⟩, pointed pointers]⟩

theorem declares_pointed :
    (pointed 4).Declares [pointed 3, pointed 2, pointed 1, pointed 0] pointerName :=
  .further rfl (by decide) rfl <| .further rfl (by decide) rfl <| .further rfl (by decide) rfl <|
    .further rfl (by decide) rfl <| .name rfl (by decide)

/-- With six declarators the name is found, with its parameters; with seven it is not. -/
theorem line?_of_declares_pointers :
    (pointing 4).line? "char *****f(int a) { }".toList true = some "Function: f(int a)".toList ∧
      (pointing 5).line? "char *****f(int a) { }".toList true = none := by
  have hname : pointerName.text? "char *****f(int a) { }".toList = some "f".toList := by decide
  have hsolid : Text.blank "f".toList = false := by decide
  have hsix : (pointing 4).Declares [pointed 4, pointed 3, pointed 2, pointed 1, pointed 0] pointerName :=
    .further rfl (by decide) rfl declares_pointed
  have hseven : (pointing 5).Declares
      [pointed 5, pointed 4, pointed 3, pointed 2, pointed 1, pointed 0] pointerName :=
    .further rfl (by decide) rfl <| .further rfl (by decide) rfl declares_pointed
  have hupperSix : [pointing 4, pointed 4, pointed 3, pointed 2, pointed 1, pointed 0] =
      [pointing 4, pointed 4, pointed 3, pointed 2, pointed 1] ++ [pointed 0] := rfl
  have hupperSeven : [pointing 5, pointed 5, pointed 4, pointed 3, pointed 2, pointed 1, pointed 0] =
      [pointing 5, pointed 5, pointed 4, pointed 3, pointed 2, pointed 1] ++ [pointed 0] := rfl
  constructor
  · obtain ⟨hfew, -, -⟩ := line?_of_declares rfl rfl hsix hname hsolid hupperSix
      (by simp only [List.forall_mem_cons]; exact ⟨rfl, rfl, rfl, rfl, rfl, List.forall_mem_nil _⟩) rfl rfl
    exact (hfew (by decide)).1
  · obtain ⟨-, hmany, -⟩ := line?_of_declares rfl rfl hseven hname hsolid hupperSeven
      (by simp only [List.forall_mem_cons]; exact ⟨rfl, rfl, rfl, rfl, rfl, rfl, List.forall_mem_nil _⟩)
      rfl rfl
    exact hmany (by decide) (by decide)

end Node

end Outline
