import Mathlib.Data.List.Basic
import Outline.Line
import Outline.Proofs.Slices
import Outline.Proofs.Walks

/-!
# What a line depends on

The line of a node is put together from texts of the node and of nodes under it.

* `Node.SameTexts` — a node and all nodes under it have the same texts in two sources;
* `Node.SameTexts.line?_eq` — then the node has the same line in both;
* `Node.showsText_of_line?` — where there is a line, some of the texts is not empty;
* `Node.line?_of_same_bytes` — so a line depends only on the bytes in the range of the node.
-/

namespace Outline.Node

variable {n c d : Node} {source source' : Text}

/-! ### The nodes that are asked -/

theorem self_mem_preorder (n : Node) : n ∈ n.preorder := List.mem_cons_self

theorem mem_preorder_of_child (h : c ∈ n.children) : c ∈ n.preorder :=
  List.mem_cons_of_mem n ((mem_descendants_iff n c).2 (Below.child h))

theorem mem_preorder_trans (hc : c ∈ n.preorder) (hd : d ∈ c.preorder) : d ∈ n.preorder := by
  rcases List.mem_cons.1 hc with rfl | hc
  · exact hd
  rcases List.mem_cons.1 hd with rfl | hd
  · exact List.mem_cons_of_mem n hc
  · rw [mem_descendants_iff] at hc hd
    exact List.mem_cons_of_mem n ((mem_descendants_iff n d).2 (hc.trans hd))

theorem mem_preorder_of_child? {field : String} (h : n.child? field = some c) : c ∈ n.preorder :=
  mem_preorder_of_child (List.mem_of_find?_eq_some h)

theorem mem_preorder_of_namedChild (h : c ∈ n.namedChildren) : c ∈ n.preorder :=
  mem_preorder_of_child (List.mem_filter.1 h).1

theorem mem_preorder_of_mem_filter {p : Node → Bool} :
    ∀ c ∈ n.namedChildren.filter p, c ∈ n.preorder :=
  fun _ hc => mem_preorder_of_namedChild (List.mem_filter.1 hc).1

theorem mem_preorder_of_childOfKind? {kind : String} (h : n.childOfKind? kind = some c) :
    c ∈ n.preorder :=
  mem_preorder_of_namedChild (List.mem_of_find?_eq_some h)

theorem mem_preorder_of_declarators {depth : Nat} (h : d ∈ n.declarators depth) :
    d ∈ n.preorder := by
  induction depth generalizing n with
  | zero => cases h
  | succ depth ih =>
    rw [declarators] at h
    split at h
    · rename_i e he
      rcases List.mem_cons.1 h with rfl | h
      · exact mem_preorder_of_child? he
      · exact mem_preorder_trans (mem_preorder_of_child? he) (ih h)
    · cases h

theorem mem_preorder_of_nameHolder? (h : n.nameHolder? = some c) : c ∈ n.preorder := by
  rw [nameHolder?] at h
  split at h
  · cases h
    exact n.self_mem_preorder
  · exact mem_preorder_of_child? h

/-- The node that holds the name of a declaration. -/
theorem mem_preorder_of_holder {depth : Nat}
    (h : (n.child? "name").or ((n.declarators depth).findSome? nameHolder?) = some c) :
    c ∈ n.preorder := by
  rcases Option.or_eq_some_iff.1 h with h | ⟨-, h⟩
  · exact mem_preorder_of_child? h
  · obtain ⟨d, hd, hc⟩ := List.exists_of_findSome?_eq_some h
    exact mem_preorder_trans (mem_preorder_of_declarators hd) (mem_preorder_of_nameHolder? hc)

theorem mem_preorder_of_childAlong? {field : String} (h : n.childAlong? field = some c) :
    c ∈ n.preorder := by
  obtain ⟨d, hd, hc⟩ := List.exists_of_findSome?_eq_some h
  rcases List.mem_cons.1 hd with rfl | hd
  · exact mem_preorder_of_child? hc
  · exact mem_preorder_trans (mem_preorder_of_declarators hd) (mem_preorder_of_child? hc)

theorem mem_preorder_of_openingTag? (h : n.openingTag? = some c) : c ∈ n.preorder := by
  rcases Option.or_eq_some_iff.1 h with h | ⟨-, h⟩
  · exact mem_preorder_of_child? h
  · rcases Option.or_eq_some_iff.1 h with h | ⟨-, h⟩
    · exact mem_preorder_of_childOfKind? h
    · exact mem_preorder_of_childOfKind? h

/-- A child by a field, or else one by its kind. -/
theorem mem_preorder_of_child?_or {field kind : String}
    (h : (n.child? field).or (n.childOfKind? kind) = some c) : c ∈ n.preorder := by
  rcases Option.or_eq_some_iff.1 h with h | ⟨-, h⟩
  · exact mem_preorder_of_child? h
  · exact mem_preorder_of_childOfKind? h

/-! ### The same texts -/

/-- A node and the nodes under it have the same texts in two sources. -/
def SameTexts (n : Node) (source source' : Text) : Prop :=
  ∀ d ∈ n.preorder, d.text? source = d.text? source'

namespace SameTexts

theorem of_mem (h : n.SameTexts source source') (hc : c ∈ n.preorder) :
    c.SameTexts source source' :=
  fun d hd => h d (mem_preorder_trans hc hd)

theorem text?_eq (h : n.SameTexts source source') : n.text? source = n.text? source' :=
  h n n.self_mem_preorder

theorem clean?_eq (h : n.SameTexts source source') : n.clean? source = n.clean? source' := by
  rw [clean?, clean?, h.text?_eq]

/-- What is read of some node, if there is one. -/
theorem bind_eq {α : Type} {o : Option Node} {f g : Node → Option α} (h : n.SameTexts source source')
    (ho : ∀ c, o = some c → c ∈ n.preorder)
    (hfg : ∀ c : Node, c.SameTexts source source' → f c = g c) : o.bind f = o.bind g :=
  Option.bind_congr fun c hc => hfg c (h.of_mem (ho c hc))

/-- What is read of some nodes. -/
theorem filterMap_eq {α : Type} {l : List Node} {f g : Node → Option α}
    (h : n.SameTexts source source') (hl : ∀ c ∈ l, c ∈ n.preorder)
    (hfg : ∀ c : Node, c.SameTexts source source' → f c = g c) : l.filterMap f = l.filterMap g := by
  apply List.filterMap_congr
  intro c hc
  exact hfg c (h.of_mem (hl c hc))

theorem specNames_eq (h : n.SameTexts source source') :
    n.specNames source = n.specNames source' := by
  apply h.filterMap_eq mem_preorder_of_mem_filter
  intro c hc
  exact hc.bind_eq (fun _ => mem_preorder_of_child?) fun _ => clean?_eq

theorem name?_eq (h : n.SameTexts source source') : n.name? source = n.name? source' := by
  rw [name?, name?, h.specNames_eq]
  split
  · rename_i holder hholder
    exact (h.of_mem (mem_preorder_of_holder hholder)).clean?_eq
  · rfl

theorem signature_eq (h : n.SameTexts source source') :
    n.signature source = n.signature source' := by
  have hparameters : (n.childAlong? "parameters").bind (·.text? source) =
      (n.childAlong? "parameters").bind (·.text? source') :=
    h.bind_eq (fun _ => mem_preorder_of_childAlong?) fun _ => text?_eq
  have hresult : ((n.childAlong? "return_type").or (n.child? "result")).bind (·.text? source) =
      ((n.childAlong? "return_type").or (n.child? "result")).bind (·.text? source') := by
    refine h.bind_eq (fun c hc => ?_) fun _ => text?_eq
    rcases Option.or_eq_some_iff.1 hc with hc | ⟨-, hc⟩
    · exact mem_preorder_of_childAlong? hc
    · exact mem_preorder_of_child? hc
  rw [signature, signature, hparameters, hresult]

theorem modifiers_eq (h : n.SameTexts source source') :
    n.modifiers source = n.modifiers source' := by
  rw [modifiers, modifiers, h.filterMap_eq mem_preorder_of_mem_filter fun _ => text?_eq]

theorem tagged?_eq (h : n.SameTexts source source') : n.tagged? source = n.tagged? source' := by
  refine h.bind_eq (fun _ => mem_preorder_of_openingTag?) fun tag htag => ?_
  have hname : tag.tagName? source = tag.tagName? source' := by
    refine htag.bind_eq (fun _ => mem_preorder_of_child?_or) fun name hname => ?_
    rw [hname.text?_eq]
  rw [hname]

theorem previewed?_eq (h : n.SameTexts source source') :
    n.previewed? source = n.previewed? source' := by
  rw [previewed?, previewed?, h.text?_eq]

theorem selectors?_eq (h : n.SameTexts source source') :
    n.selectors? source = n.selectors? source' := by
  refine h.bind_eq (fun _ => mem_preorder_of_child?_or) fun s hs => ?_
  have hparts : s.namedChildren.filterMap (·.clean? source) =
      s.namedChildren.filterMap (·.clean? source') :=
    hs.filterMap_eq (fun _ => mem_preorder_of_namedChild) fun _ => clean?_eq
  rw [hparts, hs.clean?_eq]

theorem invocation?_eq (h : n.SameTexts source source') :
    n.invocation? source = n.invocation? source' := by
  refine h.bind_eq (fun c hc => ?_) fun callee hcallee => ?_
  · obtain ⟨field, -, hchild⟩ := List.exists_of_findSome?_eq_some hc
    exact mem_preorder_of_child? hchild
  · rw [hcallee.clean?_eq]

/-- **The same texts give the same line.** -/
theorem line?_eq (h : n.SameTexts source source') (signatures : Bool) :
    n.line? source signatures = n.line? source' signatures := by
  unfold line?
  cases ruleOf n.kind with
  | callable =>
    show (n.callable? source signatures).map _ = (n.callable? source' signatures).map _
    rw [callable?, callable?, h.name?_eq, h.signature_eq]
  | typeLike =>
    show (n.typeLike? source).map _ = (n.typeLike? source').map _
    rw [typeLike?, typeLike?, h.name?_eq, h.modifiers_eq]
  | element =>
    show ((n.tagged? source).map _).or ((n.previewed? source).map _) =
      ((n.tagged? source').map _).or ((n.previewed? source').map _)
    rw [h.tagged?_eq, h.previewed?_eq]
  | styleRule =>
    show (n.styleRule? source).map _ = (n.styleRule? source').map _
    rw [styleRule?, styleRule?, h.selectors?_eq]
  | invocation =>
    show (n.invocation? source).map _ = (n.invocation? source').map _
    rw [h.invocation?_eq]
  | named =>
    show (n.name? source).map _ = (n.name? source').map _
    rw [h.name?_eq]

end SameTexts

/-! ### A text that is not empty -/

/-- A node or a node under it has a text that is not empty. -/
def ShowsText (n : Node) (source : Text) : Prop :=
  ∃ d ∈ n.preorder, ∃ t, d.text? source = some t ∧ t ≠ []

theorem ShowsText.of_mem (hc : c ∈ n.preorder) (h : c.ShowsText source) : n.ShowsText source := by
  obtain ⟨d, hd, ht⟩ := h
  exact ⟨d, mem_preorder_trans hc hd, ht⟩

theorem ShowsText.of_text? {t : Text} (h : n.text? source = some t) (ht : t ≠ []) :
    n.ShowsText source :=
  ⟨n, n.self_mem_preorder, t, h, ht⟩

theorem showsText_of_clean? {t : Text} (h : n.clean? source = some t) : n.ShowsText source := by
  obtain ⟨s, hs, ht⟩ := Option.bind_eq_some_iff.1 h
  refine ShowsText.of_text? hs ?_
  rintro rfl
  cases ht

theorem showsText_of_name? {t : Text} (h : n.name? source = some t) : n.ShowsText source := by
  rw [name?] at h
  split at h
  · rename_i holder hholder
    exact (showsText_of_clean? h).of_mem (mem_preorder_of_holder hholder)
  · have hne : n.specNames source ≠ [] := by
      intro hnil
      rw [hnil] at h
      cases h
    obtain ⟨name, hname⟩ := List.exists_mem_of_ne_nil _ hne
    obtain ⟨spec, hspec, hname⟩ := List.mem_filterMap.1 hname
    obtain ⟨holder, hholder, hclean⟩ := Option.bind_eq_some_iff.1 hname
    have hmem := mem_preorder_trans (mem_preorder_of_mem_filter spec hspec)
      (mem_preorder_of_child? hholder)
    exact (showsText_of_clean? hclean).of_mem hmem

theorem showsText_of_tagged? {t : Text} (h : n.tagged? source = some t) : n.ShowsText source := by
  obtain ⟨tag, htag, h⟩ := Option.bind_eq_some_iff.1 h
  obtain ⟨name, hname, -⟩ := Option.map_eq_some_iff.1 h
  obtain ⟨holder, hholder, h⟩ := Option.bind_eq_some_iff.1 hname
  obtain ⟨s, hs, htrim⟩ := Option.bind_eq_some_iff.1 h
  have hmem := mem_preorder_trans (mem_preorder_of_openingTag? htag)
    (mem_preorder_of_child?_or hholder)
  refine (ShowsText.of_text? hs ?_).of_mem hmem
  rintro rfl
  cases htrim

theorem showsText_of_previewed? {t : Text} (h : n.previewed? source = some t) :
    n.ShowsText source := by
  obtain ⟨shown, hshown, -⟩ := Option.map_eq_some_iff.1 h
  obtain ⟨s, hs, hpreview⟩ := Option.bind_eq_some_iff.1 hshown
  refine ShowsText.of_text? hs ?_
  rintro rfl
  cases hpreview

theorem showsText_of_selectors? {t : Text} (h : n.selectors? source = some t) :
    n.ShowsText source := by
  obtain ⟨s, hs, h⟩ := Option.bind_eq_some_iff.1 h
  apply ShowsText.of_mem (mem_preorder_of_child?_or hs)
  split at h
  · exact showsText_of_clean? h
  · rename_i hne
    obtain ⟨part, hpart⟩ := List.exists_mem_of_ne_nil _ hne
    obtain ⟨c, hc, hclean⟩ := List.mem_filterMap.1 hpart
    exact (showsText_of_clean? hclean).of_mem (mem_preorder_of_namedChild hc)

theorem showsText_of_invocation? {t : Text} (h : n.invocation? source = some t) :
    n.ShowsText source := by
  obtain ⟨callee, hcallee, h⟩ := Option.bind_eq_some_iff.1 h
  obtain ⟨name, hname, -⟩ := Option.map_eq_some_iff.1 h
  obtain ⟨field, -, hchild⟩ := List.exists_of_findSome?_eq_some hcallee
  exact (showsText_of_clean? hname).of_mem (mem_preorder_of_child? hchild)

/-- **Where there is a line, there is a text that is not empty.** -/
theorem showsText_of_line? {signatures : Bool} {line : Text}
    (h : n.line? source signatures = some line) : n.ShowsText source := by
  unfold line? at h
  cases hrule : ruleOf n.kind with
  | callable =>
    rw [hrule] at h
    obtain ⟨s, hs, -⟩ := Option.map_eq_some_iff.1 h
    obtain ⟨name, hname, -⟩ := Option.map_eq_some_iff.1 hs
    exact showsText_of_name? hname
  | typeLike =>
    rw [hrule] at h
    obtain ⟨s, hs, -⟩ := Option.map_eq_some_iff.1 h
    obtain ⟨name, hname, -⟩ := Option.map_eq_some_iff.1 hs
    exact showsText_of_name? hname
  | element =>
    rw [hrule] at h
    rcases Option.or_eq_some_iff.1 h with h | ⟨-, h⟩
    · obtain ⟨s, hs, -⟩ := Option.map_eq_some_iff.1 h
      exact showsText_of_tagged? hs
    · obtain ⟨s, hs, -⟩ := Option.map_eq_some_iff.1 h
      exact showsText_of_previewed? hs
  | styleRule =>
    rw [hrule] at h
    obtain ⟨s, hs, -⟩ := Option.map_eq_some_iff.1 h
    obtain ⟨selectors, hselectors, -⟩ := Option.map_eq_some_iff.1 hs
    exact showsText_of_selectors? hselectors
  | invocation =>
    rw [hrule] at h
    obtain ⟨s, hs, -⟩ := Option.map_eq_some_iff.1 h
    exact showsText_of_invocation? hs
  | named =>
    rw [hrule] at h
    obtain ⟨s, hs, -⟩ := Option.map_eq_some_iff.1 h
    exact showsText_of_name? hs

/-! ### The bytes of a node -/

/-- The ranges of the nodes under a node lie in its own range. -/
def Encloses (n : Node) : Prop := ∀ d ∈ n.descendants, n.start ≤ d.start ∧ d.stop ≤ n.stop

theorem Encloses.range (h : n.Encloses) (hd : d ∈ n.preorder) :
    n.start ≤ d.start ∧ d.stop ≤ n.stop := by
  rcases List.mem_cons.1 hd with rfl | hd
  · exact ⟨Nat.le_refl _, Nat.le_refl _⟩
  · exact h d hd

/-- What a node shows in one source gives it its texts in all that agree on its range. -/
theorem sameTexts_of_agree (hrange : n.Encloses) (hagree : Text.Agree n.start n.stop source source')
    (hshow : n.ShowsText source) : n.SameTexts source source' := by
  have hchar : Text.ShowsIn n.start n.stop source := by
    obtain ⟨d, hd, t, ht, hne⟩ := hshow
    have hd := hrange.range hd
    exact ⟨d.start, d.stop, t, hd.1, hd.2, hne, ht⟩
  intro d hd
  have hd := hrange.range hd
  exact hagree.slice_eq hchar hd.1 hd.2

theorem line?_of_agree (hrange : n.Encloses) (hagree : Text.Agree n.start n.stop source source')
    {signatures : Bool} {line : Text} (h : n.line? source signatures = some line) :
    n.line? source' signatures = some line := by
  rw [← h]
  exact ((sameTexts_of_agree hrange hagree (showsText_of_line? h)).line?_eq signatures).symm

/-- **A line depends only on the node's own bytes.**  The ranges under the node may be empty, the wrong
way round or within a character, and what is behind the node may differ: the same bytes in the node's
range make the same line, or none.  (A source that ends within the range has no bytes behind its end.) -/
theorem line?_of_same_bytes (hrange : ∀ d ∈ n.descendants, n.start ≤ d.start ∧ d.stop ≤ n.stop)
    (hbytes : ∀ i, n.start ≤ i → i < n.stop → source.utf8[i]? = source'.utf8[i]?)
    (signatures : Bool) : n.line? source signatures = n.line? source' signatures := by
  have hagree : Text.Agree n.start n.stop source source' := hbytes
  exact Option.ext fun line => ⟨line?_of_agree hrange hagree, line?_of_agree hrange hagree.symm⟩

/-- A function, with a node under it whose range is the wrong way round, and ends within a character. -/
def enclosing : Node :=
  ⟨0, "function_item", none, true, 3, 8,
    [⟨1, "identifier", some "name", true, 3, 4, []⟩,
     ⟨2, "parameters", some "parameters", true, 4, 8, [⟨3, "ERROR", none, true, 7, 6, []⟩]⟩]⟩

theorem line?_of_same_bytes_enclosing :
    (∀ d ∈ enclosing.descendants, enclosing.start ≤ d.start ∧ d.stop ≤ enclosing.stop) ∧
      enclosing.line? "α f(é)β".toList true = some "Function: f(é)".toList ∧
      enclosing.line? "ab f(é)".toList true = some "Function: f(é)".toList := by
  have hrange : ∀ d ∈ enclosing.descendants,
      enclosing.start ≤ d.start ∧ d.stop ≤ enclosing.stop := by decide
  have hline : enclosing.line? "ab f(é)".toList true = some "Function: f(é)".toList := by
    decide +kernel
  have hbytes : ∀ i < 8, 3 ≤ i →
      (Text.utf8 "α f(é)β".toList)[i]? = (Text.utf8 "ab f(é)".toList)[i]? := by decide +kernel
  refine ⟨hrange, ?_, hline⟩
  rw [← hline]
  exact line?_of_same_bytes hrange (fun i hi hi' => hbytes i hi' hi) true

end Outline.Node
