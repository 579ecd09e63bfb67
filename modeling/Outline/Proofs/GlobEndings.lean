import Outline.Glob.Parser
import Outline.Proofs.Slices

/-!
# Patterns for endings

A pattern that begins with `**/*` allows any directory and any start of a name.  What follows is an
ending.

* `GlobToken.mem_starRests_iff`, `GlobToken.suffix_of_mem_slashRests`, `GlobToken.mem_literalRests_iff`
  — what can be left of a text behind one token;
* `GlobToken.mem_restsAll_cons`, `GlobToken.mem_restsAll_literals` — and behind several of them;
* `Text.utf8_suffix_iff` — a text ends in another one if and only if its bytes do;
* `Glob.ofEnding`, `Glob.isMatch_ofEnding_iff` — the pattern for an ending matches the texts that end in
  it, of whatever depth, and no others;
* `GlobReader.run_plain`, `Glob.parse_ofEnding` — it is what `**/*` and a plain text spell.

The star reaches over slashes, so a text can be cut between the two wildcards in many ways.  It is enough
that what is left behind both of them is any end of the text.
-/

namespace Outline

namespace GlobToken

variable {bounded : Bool} {s r : Bytes}

/-! ### What is left -/

/-- A star that is not bounded may leave any end of a text. -/
theorem mem_starRests_iff : r ∈ starRests false s ↔ r <:+ s := by
  induction s with
  | nil => simp [starRests]
  | cons b s ih =>
    rw [starRests, Bool.false_and, if_neg Bool.false_ne_true, List.mem_cons, ih, List.suffix_cons_iff]

/-- What is left behind a slash is an end of the text. -/
theorem suffix_of_mem_slashRests (h : r ∈ slashRests s) : r <:+ s := by
  induction s with
  | nil => cases h
  | cons b s ih =>
    rw [slashRests] at h
    split at h
    · cases List.mem_cons.1 h with
      | inl heq => exact heq ▸ List.suffix_cons b s
      | inr h => exact (ih h).trans (List.suffix_cons b s)
    · exact (ih h).trans (List.suffix_cons b s)

theorem mem_literalRests_iff {l : Bytes} : r ∈ literalRests l s ↔ s = l ++ r := by
  induction l generalizing s with
  | nil => simp [literalRests, eq_comm]
  | cons a l ih =>
    cases s with
    | nil => simp [literalRests]
    | cons b s =>
      rw [literalRests]
      split
      · rename_i hab
        rw [ih, hab, List.cons_append, List.cons.injEq, and_iff_right rfl]
      · rename_i hab
        simp [Ne.symm hab]

/-! ### One token after the other -/

/-- Each of the texts leaves what it leaves by itself. -/
theorem mem_restsAll_iff {ts : List GlobToken} {ss : List Bytes} :
    r ∈ restsAll bounded ts ss ↔ ∃ s ∈ ss, r ∈ restsAll bounded ts [s] := by
  induction ts generalizing ss with
  | nil => simp [restsAll]
  | cons t ts ih =>
    rw [restsAll, ih]
    simp only [List.mem_eraseDups, List.mem_flatMap]
    constructor
    · rintro ⟨m, ⟨s, hs, hm⟩, hr⟩
      refine ⟨s, hs, ?_⟩
      rw [restsAll, ih]
      exact ⟨m, by simpa using hm, hr⟩
    · rintro ⟨s, hs, hr⟩
      rw [restsAll, ih] at hr
      obtain ⟨m, hm, hr⟩ := hr
      exact ⟨m, ⟨s, hs, by simpa using hm⟩, hr⟩

/-- The tokens match one after the other. -/
theorem mem_restsAll_cons {t : GlobToken} {ts : List GlobToken} :
    r ∈ restsAll bounded (t :: ts) [s] ↔ ∃ m ∈ rests bounded t s, r ∈ restsAll bounded ts [m] := by
  rw [restsAll, mem_restsAll_iff]
  simp only [List.mem_eraseDups, List.flatMap_singleton]

/-- Literals match the text that they are. -/
theorem mem_restsAll_literals {l : Text} :
    r ∈ restsAll bounded (l.map .literal) [s] ↔ s = l.utf8 ++ r := by
  induction l generalizing s with
  | nil => simp [restsAll, Text.utf8, eq_comm]
  | cons c l ih =>
    rw [List.map_cons, mem_restsAll_cons, Text.utf8_cons, List.append_assoc]
    simp only [rests, mem_literalRests_iff, ih]
    constructor
    · rintro ⟨m, rfl, rfl⟩
      rfl
    · rintro rfl
      exact ⟨_, rfl, rfl⟩

end GlobToken

/-! ### Endings -/

namespace Text

theorem utf8_injective : Function.Injective utf8 := by
  intro t u h
  have hdecode := congrArg Utf8.decode? h
  rw [Utf8.decode?_utf8, Utf8.decode?_utf8] at hdecode
  exact Option.some.inj hdecode

/-- A text ends in another one if its bytes do: where the bytes of the ending begin, a character
begins. -/
theorem utf8_suffix_iff {t ending : Text} : ending.utf8 <:+ t.utf8 ↔ ending <:+ t := by
  constructor
  · rintro ⟨before, h⟩
    by_cases hne : ending = []
    · rw [hne]
      exact List.nil_suffix
    obtain ⟨b, hb, hfirst⟩ := exists_firstByte hne
    have hbyte : t.utf8[before.length]? = some b := by
      rw [← h, List.getElem?_append_right (Nat.le_refl _), Nat.sub_self, hb]
    obtain ⟨s, r, rfl, hs⟩ := seam_of_firstByte hbyte hfirst
    rw [utf8_append] at h
    obtain ⟨-, hr⟩ := List.append_inj h (by rw [length_utf8, hs])
    exact ⟨s, by rw [utf8_injective hr]⟩
  · rintro ⟨s, rfl⟩
    exact ⟨utf8 s, (utf8_append s ending).symm⟩

end Text

namespace Glob

/-- The pattern for an ending: any directories, any start of a name, and then the ending. -/
def ofEnding (ending : Text) : Glob := ⟨.anyDepth :: .star :: ending.map .literal, false⟩

/-- **The pattern for an ending matches the texts that end in it**, and no others. -/
theorem isMatch_ofEnding_iff {ending path : Text} :
    (ofEnding ending).isMatch path.utf8 = true ↔ ending <:+ path := by
  rw [← Text.utf8_suffix_iff, ofEnding, isMatch, List.contains_iff_mem, GlobToken.mem_restsAll_cons]
  simp only [GlobToken.mem_restsAll_cons, GlobToken.mem_restsAll_literals, GlobToken.rests,
    GlobToken.mem_starRests_iff, List.append_nil]
  constructor
  · rintro ⟨m, hm, rest, hrest, rfl⟩
    cases List.mem_cons.1 hm with
    | inl heq => exact heq ▸ hrest
    | inr hm => exact hrest.trans (GlobToken.suffix_of_mem_slashRests hm)
  · intro h
    exact ⟨_, List.mem_cons_self, _, h, rfl⟩

end Glob

/-! ### Reading -/

/-- Whether a character has no meaning of its own in a pattern. -/
def Glob.isPlain (c : Char) : Bool := !(['?', '*', '{', '}', ',', '\\', '['].contains c)

namespace GlobReader

theorem run_cons_plain {c : Char} (hc : Glob.isPlain c = true) (lenient : Bool) (g : GlobReader)
    (t : Text) : run lenient g (c :: t) = run lenient (g.push (.literal c) c) t := by
  simp only [Glob.isPlain, Bool.not_eq_true', List.contains_eq_mem, decide_eq_false_iff_not,
    List.mem_cons, List.not_mem_nil, or_false, not_or] at hc
  rw [run]
  all_goals grind

/-- Plain characters stand for themselves. -/
theorem run_plain {t : Text} (ht : t.all Glob.isPlain = true) (lenient : Bool) {g : GlobReader}
    (hg : g.groups = []) : run lenient g t = .ok (g.tokens.reverse ++ t.map .literal) := by
  induction t generalizing g with
  | nil => rw [run, hg, List.isEmpty_nil, if_pos rfl, List.map_nil, List.append_nil]
  | cons c t ih =>
    obtain ⟨hc, ht⟩ := Bool.and_eq_true_iff.1 ht
    have hpush : (g.push (.literal c) c).groups = [] := hg
    rw [run_cons_plain hc, ih ht hpush, push, List.reverse_cons, List.append_assoc]
    rfl

end GlobReader

/-- **Two stars, a slash, a star and a plain text** spell the pattern for that ending. -/
theorem Glob.parse_ofEnding {ending : Text} (h : ending.all isPlain = true) :
    parse ("**/*".toList ++ ending) = .ok (ofEnding ending) := by
  -- the star behind the slash is single, as the ending does not begin with another one
  have hsingle : ∀ r, ending = '*' :: r → False := by
    rintro r rfl
    cases h
  have hstars : GlobReader.run false GlobReader.start ("**/*".toList ++ ending) =
      GlobReader.run false ⟨some '*', [.star, .anyDepth], [], true⟩ ending := by
    show GlobReader.run false GlobReader.start ('*' :: '*' :: '/' :: '*' :: ending) = _
    rw [GlobReader.run]
    show GlobReader.run false ⟨some '/', [.anyDepth], [], true⟩ ('*' :: ending) = _
    rw [GlobReader.run]
    · rfl
    · exact hsingle
  rw [parse, hstars, GlobReader.run_plain h false rfl]
  rfl

end Outline
