import Outline.Proofs.LowerCase
import Outline.Proofs.Words
import Outline.Registry

/-!
# Looking up languages

The registry of a list of languages, whatever their extensions: an extension may be given more than
once, by one language or by several, and in a form that no look-up asks for.

* `normalizeExtension_idem` — the form in which extensions are compared has itself for its form;
* `LanguageIndex.pairwise_insert`, `LanguageIndex.find?_insertAll` — the index stays in order, each
  extension once, and the language that is given extensions has them from then on;
* `Registry.LastWith` — the last of some languages that has an extension;
* `Registry.find?_index` — for each extension the index holds this language;
* `Registry.lookup?_ofLanguages` — what look-ups find, and which extensions are known.

The induction over the languages goes from the end: the last one listed wins.
-/

namespace Outline

/-! ### The form of an extension -/

/-- The form of an extension begins with a dot, does not end in a blank, and is in lower case. -/
theorem normalizeExtension_spec (e : Text) : (normalizeExtension e).head? = some '.' ∧
    (∀ c ∈ (normalizeExtension e).getLast?, isBlank c = false) ∧
    ∀ c ∈ normalizeExtension e, IsLower c := by
  have hlast := Text.getLast?_lowercase (Text.getLast?_trim e)
  have hlower : ∀ c ∈ e.trim.lowercase, IsLower c := Text.isLower_of_mem_lowercaseAfter
  rw [normalizeExtension]
  split
  · rename_i hdot
    exact ⟨hdot, hlast, hlower⟩
  · refine ⟨rfl, fun c hc => ?_, List.forall_mem_cons.2 ⟨by decide, hlower⟩⟩
    rw [List.getLast?_cons] at hc
    cases hend : (Text.lowercase e.trim).getLast? with
    | none =>
      rw [hend] at hc
      cases hc
      decide
    | some d =>
      rw [hend] at hc
      cases hc
      exact hlast d hend

/-- **An extension in its form stays as it is.** -/
theorem normalizeExtension_idem (e : Text) :
    normalizeExtension (normalizeExtension e) = normalizeExtension e := by
  obtain ⟨hdot, hlast, hlower⟩ := normalizeExtension_spec e
  generalize normalizeExtension e = f at *
  have htrim : f.trim = f := by
    apply Text.trim_eq_self _ hlast
    intro c hc
    rw [hdot] at hc
    cases hc
    decide
  have hkept : f.lowercase = f := Text.lowercaseAfter_eq_self hlower
  rw [normalizeExtension, htrim, hkept, if_pos hdot]

/-! ### The index -/

namespace LanguageIndex

variable {index : LanguageIndex} {extension e : Text} {l : Language}

theorem mem_map_fst_insert :
    e ∈ (LanguageIndex.insert extension l index).map (·.1) ↔
      e = extension ∨ e ∈ index.map (·.1) := by
  induction index with
  | nil => simp [insert]
  | cons a rest ih =>
    obtain ⟨k, m⟩ := a
    rw [insert]
    split
    · rw [List.map_cons, List.mem_cons, ih, List.map_cons, List.mem_cons, or_left_comm]
    split
    · rw [List.map_cons, List.mem_cons]
    · rename_i hge hle
      have hk : k = extension := List.le_antisymm hle hge
      simp [hk]

/-- **An insertion keeps the order of the index**, in which each extension stands once. -/
theorem pairwise_insert (h : index.Pairwise fun a b => a.1 < b.1) :
    (LanguageIndex.insert extension l index).Pairwise fun a b => a.1 < b.1 := by
  induction index with
  | nil => exact List.pairwise_singleton _ _
  | cons a rest ih =>
    obtain ⟨k, m⟩ := a
    obtain ⟨hk, hrest⟩ := List.pairwise_cons.1 h
    rw [insert]
    split
    · rename_i hlt
      refine List.pairwise_cons.2 ⟨fun b hb => ?_, ih hrest⟩
      have hmem := mem_map_fst_insert.1 (List.mem_map_of_mem hb)
      obtain heq | hmem := hmem
      · exact heq ▸ hlt
      · obtain ⟨b', hb', heq⟩ := List.mem_map.1 hmem
        exact heq ▸ hk b' hb'
    split
    · rename_i hlt
      refine List.pairwise_cons.2 ⟨fun b hb => ?_, h⟩
      obtain rfl | hb := List.mem_cons.1 hb
      · exact hlt
      · exact List.lt_trans hlt (hk b hb)
    · rename_i hge hle
      have heq : k = extension := List.le_antisymm hle hge
      exact List.pairwise_cons.2 ⟨heq ▸ hk, hrest⟩

/-- What the index holds for an extension after a language has been given several. -/
theorem find?_insertAll (extensions : List Text) (h : index.Pairwise fun a b => a.1 < b.1) :
    (extensions.foldl (fun index x => LanguageIndex.insert x l index) index).find? (·.1 == e) =
      if e ∈ extensions then some (e, l) else index.find? (·.1 == e) := by
  induction extensions generalizing index with
  | nil => simp
  | cons x xs ih =>
    rw [List.foldl_cons, ih (pairwise_insert h), find?_insert x e l index h]
    by_cases hxs : e ∈ xs
    · rw [if_pos hxs, if_pos (List.mem_cons_of_mem x hxs)]
    · rw [if_neg hxs]
      by_cases hx : x = e
      · subst hx
        rw [if_pos rfl, if_pos List.mem_cons_self]
      · rw [if_neg hx, if_neg]
        exact fun hmem => (List.mem_cons.1 hmem).elim (fun heq => hx heq.symm) hxs

theorem pairwise_insertAll (extensions : List Text) (h : index.Pairwise fun a b => a.1 < b.1) :
    (extensions.foldl (fun index x => LanguageIndex.insert x l index) index).Pairwise
      fun a b => a.1 < b.1 := by
  induction extensions generalizing index with
  | nil => exact h
  | cons x xs ih => exact ih (pairwise_insert h)

end LanguageIndex

namespace Registry

variable {ls : List Language} {l m : Language} {e : Text}

/-! ### The last language with an extension -/

/-- `l` is the last of the languages that have the extension. -/
def LastWith (ls : List Language) (e : Text) (l : Language) : Prop :=
  ∃ before after, ls = before ++ l :: after ∧ e ∈ l.extensions ∧ ∀ m ∈ after, e ∉ m.extensions

/-- One more language is the last with each of its own extensions, and matters to no other. -/
theorem lastWith_concat :
    LastWith (ls ++ [m]) e l ↔ if e ∈ m.extensions then l = m else LastWith ls e l := by
  constructor
  · rintro ⟨before, after, hsplit, hl, hafter⟩
    rcases List.eq_nil_or_concat' after with rfl | ⟨after, m', rfl⟩
    · obtain ⟨-, heq⟩ := List.append_inj' hsplit rfl
      obtain rfl : m = l := (List.cons.inj heq).1
      rw [if_pos hl]
    · rw [← List.cons_append, ← List.append_assoc] at hsplit
      obtain ⟨hls, heq⟩ := List.append_inj' hsplit rfl
      obtain rfl : m = m' := (List.cons.inj heq).1
      obtain ⟨hafter, hm⟩ := List.forall_mem_append.1 hafter
      rw [if_neg (hm m List.mem_cons_self)]
      exact ⟨before, after, hls, hl, hafter⟩
  · split
    · rename_i hm
      rintro rfl
      exact ⟨ls, [], rfl, hm, List.forall_mem_nil _⟩
    · rename_i hm
      rintro ⟨before, after, rfl, hl, hafter⟩
      refine ⟨before, after ++ [m], by simp, hl, List.forall_mem_append.2 ⟨hafter, ?_⟩⟩
      exact List.forall_mem_singleton.2 hm

theorem exists_lastWith_iff : (∃ l, LastWith ls e l) ↔ ∃ l ∈ ls, e ∈ l.extensions := by
  induction ls using List.reverseRecOn with
  | nil => simp [LastWith]
  | append_singleton ls m ih =>
    simp only [lastWith_concat, List.mem_append, List.mem_singleton]
    by_cases hm : e ∈ m.extensions
    · simp only [if_pos hm]
      exact ⟨fun _ => ⟨m, Or.inr rfl, hm⟩, fun _ => ⟨m, rfl⟩⟩
    · simp only [if_neg hm, ih]
      constructor
      · rintro ⟨l, hl, he⟩
        exact ⟨l, Or.inl hl, he⟩
      · rintro ⟨l, hl | rfl, he⟩
        · exact ⟨l, hl, he⟩
        · exact absurd he hm

/-! ### Registries -/

theorem index_concat (ls : List Language) (m : Language) :
    (ofLanguages (ls ++ [m])).index = addLanguage (ofLanguages ls).index m := List.foldl_append

theorem pairwise_index (ls : List Language) :
    (ofLanguages ls).index.Pairwise fun a b => a.1 < b.1 := by
  induction ls using List.reverseRecOn with
  | nil => exact List.Pairwise.nil
  | append_singleton ls m ih =>
    rw [index_concat]
    exact LanguageIndex.pairwise_insertAll m.extensions ih

/-- **The index holds the last language for each extension**, as the extension is spelled. -/
theorem find?_index {k : Text} : (ofLanguages ls).index.find? (·.1 == e) = some (k, l) ↔
    k = e ∧ LastWith ls e l := by
  induction ls using List.reverseRecOn with
  | nil => simp [ofLanguages, LastWith]
  | append_singleton ls m ih =>
    rw [index_concat, addLanguage, LanguageIndex.find?_insertAll m.extensions (pairwise_index ls),
      lastWith_concat]
    split
    · rw [Option.some.injEq, Prod.mk.injEq]
      exact and_congr eq_comm eq_comm
    · exact ih

theorem lookup?_eq_some_iff :
    (ofLanguages ls).lookup? e = some l ↔ LastWith ls (normalizeExtension e) l := by
  rw [lookup?, Option.map_eq_some_iff]
  constructor
  · rintro ⟨⟨k, l⟩, hfind, rfl⟩
    exact (find?_index.1 hfind).2
  · intro h
    exact ⟨(normalizeExtension e, l), find?_index.2 ⟨rfl, h⟩, rfl⟩

theorem mem_extensions_iff : e ∈ (ofLanguages ls).extensions ↔ ∃ l ∈ ls, e ∈ l.extensions := by
  rw [← exists_lastWith_iff, extensions, List.mem_map]
  constructor
  · rintro ⟨a, ha, rfl⟩
    have hsome : ((ofLanguages ls).index.find? (·.1 == a.1)).isSome = true :=
      List.find?_isSome.2 ⟨a, ha, beq_self_eq_true a.1⟩
    obtain ⟨⟨k, l⟩, hfind⟩ := Option.isSome_iff_exists.1 hsome
    exact ⟨l, (find?_index.1 hfind).2⟩
  · rintro ⟨l, hl⟩
    exact ⟨(e, l), List.mem_of_find?_eq_some (find?_index.2 ⟨rfl, hl⟩), rfl⟩

/-- **What the registry of a list of languages finds.**  A look-up gives the last language that has the
form of the extension among its own, as it is spelled there, and nothing if there is none; the form is
its own form, so that it may be looked up as well.  The known extensions are all that the languages
have, each once and in order. -/
theorem lookup?_ofLanguages (ls : List Language) :
    (∀ e l, (ofLanguages ls).lookup? e = some l ↔ LastWith ls (normalizeExtension e) l) ∧
      (∀ e, (ofLanguages ls).lookup? e = none ↔
        ∀ l ∈ ls, normalizeExtension e ∉ l.extensions) ∧
      (∀ e, normalizeExtension (normalizeExtension e) = normalizeExtension e ∧
        (ofLanguages ls).lookup? (normalizeExtension e) = (ofLanguages ls).lookup? e) ∧
      (ofLanguages ls).extensions.Pairwise (· < ·) ∧
      ∀ e, e ∈ (ofLanguages ls).extensions ↔ ∃ l ∈ ls, e ∈ l.extensions := by
  refine ⟨fun e l => lookup?_eq_some_iff, fun e => ?_, fun e => ?_,
    List.pairwise_map.2 (pairwise_index ls), fun e => mem_extensions_iff⟩
  · have hnone : (¬∃ l, (ofLanguages ls).lookup? e = some l) ↔
        ¬∃ l ∈ ls, normalizeExtension e ∈ l.extensions := by
      rw [← exists_lastWith_iff]
      exact not_congr (exists_congr fun l => lookup?_eq_some_iff)
    rw [Option.eq_none_iff_forall_ne_some, ← not_exists, hnone]
    push Not
    rfl
  · rw [lookup?, lookup?, normalizeExtension_idem]
    exact ⟨rfl, rfl⟩

end Registry

end Outline
