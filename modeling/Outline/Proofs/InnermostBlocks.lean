import Outline.Proofs.Spans
import Outline.Stylesheet

/-!
# Innermost blocks

The scan `Stylesheet.blocks`, told brace by brace.

* `Stylesheet.braceInduction` — what holds of a text without braces, and of a text as soon as it holds
  of what is behind its first brace, holds of every text;
* `Stylesheet.blocks_brace` — the step: a brace begins a block exactly if it opens one and the next
  brace closes it (`Stylesheet.inside?`), and nothing that it begins hides what is behind it;
* `Stylesheet.blocks_append`, `Stylesheet.blocks_append_block` — the blocks of a text behind a closing
  brace, and of a text with one block behind it;
* `Stylesheet.Innermost`, `Stylesheet.exists_placed` — the blocks are the innermost ones, in the order
  of their places.
-/

namespace Outline.Stylesheet

/-! ### Braces -/

/-- A text without braces. -/
def BraceFree (t : Text) : Prop := ∀ c ∈ t, noBrace c = true

theorem eq_brace {c : Char} (h : noBrace c = false) : c = '{' ∨ c = '}' := by
  simpa [noBrace, or_iff_not_imp_left] using h

theorem BraceFree.append {s t : Text} (hs : BraceFree s) (ht : BraceFree t) : BraceFree (s ++ t) :=
  List.forall_mem_append.2 ⟨hs, ht⟩

/-- A text without braces, or one with a first brace. -/
theorem braceFree_or_exists_brace (t : Text) :
    BraceFree t ∨ ∃ run c rest, t = run ++ c :: rest ∧ BraceFree run ∧ noBrace c = false := by
  cases h : t.dropWhile noBrace with
  | nil => exact Or.inl (List.dropWhile_eq_nil_iff.1 h)
  | cons c rest =>
    refine Or.inr ⟨t.takeWhile noBrace, c, rest, ?_, ?_, ?_⟩
    · rw [← h, List.takeWhile_append_dropWhile]
    · exact List.all_eq_true.1 List.all_takeWhile
    · have hhead := List.head?_dropWhile_not noBrace t
      rw [h] at hhead
      simpa using hhead

/-- **Induction along the braces of a text.** -/
@[elab_as_elim]
theorem braceInduction {P : Text → Prop} (free : ∀ t, BraceFree t → P t)
    (brace : ∀ run c rest, BraceFree run → noBrace c = false → P rest → P (run ++ c :: rest))
    (t : Text) : P t := by
  induction hn : t.length using Nat.strongRecOn generalizing t with
  | _ n ih =>
    rcases braceFree_or_exists_brace t with h | ⟨run, c, rest, rfl, hrun, hc⟩
    · exact free t h
    · have hlt : rest.length < n := by
        rw [← hn, List.length_append, List.length_cons]
        omega
      exact brace run c rest hrun hc (ih rest.length hlt rest rfl)

/-- What stands before the first brace, if that is a closing one. -/
def inside? (t : Text) : Option Text :=
  if (t.dropWhile noBrace).head? = some '}' then some (t.takeWhile noBrace) else none

theorem inside?_of_braceFree {t : Text} (h : BraceFree t) : inside? t = none := by
  rw [inside?, List.dropWhile_eq_nil_iff.2 h]
  rfl

theorem inside?_brace {run : Text} {c : Char} (hrun : BraceFree run) (hc : noBrace c = false)
    (rest : Text) : inside? (run ++ c :: rest) = if c = '}' then some run else none := by
  rw [inside?, takeWhile_span hrun hc, dropWhile_span hrun hc, List.head?_cons]
  by_cases h : c = '}'
  · rw [if_pos h, if_pos (congrArg some h)]
  · rw [if_neg h, if_neg fun he => h (Option.some.inj he)]

theorem inside?_eq_some_iff {t s : Text} :
    inside? t = some s ↔ BraceFree s ∧ ∃ rest, t = s ++ '}' :: rest := by
  constructor
  · intro h
    rcases braceFree_or_exists_brace t with hfree | ⟨run, c, rest, rfl, hrun, hc⟩
    · rw [inside?_of_braceFree hfree] at h
      cases h
    · rw [inside?_brace hrun hc] at h
      split at h
      · rename_i hclose
        obtain rfl := Option.some.inj h
        exact ⟨hrun, rest, by rw [hclose]⟩
      · cases h
  · rintro ⟨hs, rest, rfl⟩
    rw [inside?_brace hs (by decide), if_pos rfl]

/-! ### The step of the scan -/

theorem blocks_of_braceFree {t : Text} (h : BraceFree t) : blocks t = [] := by
  have hdrop : t.dropWhile noBrace = [] := List.dropWhile_eq_nil_iff.2 h
  rw [blocks]
  split
  · rfl
  · rename_i h'
    rw [hdrop] at h'
    cases h'
  · rename_i h'
    rw [hdrop] at h'
    cases h'

theorem blocks_close {run : Text} (hrun : BraceFree run) (rest : Text) :
    blocks (run ++ '}' :: rest) = blocks rest := by
  have hdrop : (run ++ '}' :: rest).dropWhile noBrace = '}' :: rest :=
    dropWhile_span hrun (by decide)
  rw [blocks]
  split
  · rename_i h'
    rw [hdrop] at h'
    cases h'
  · rename_i h'
    rw [hdrop] at h'
    cases h'
  · rename_i h'
    rw [hdrop] at h'
    obtain ⟨-, rfl⟩ := List.cons.inj h'
    rfl

theorem blocks_open {run : Text} (hrun : BraceFree run) (rest : Text) :
    blocks (run ++ '{' :: rest) = ((inside? rest).map fun s => (run, s)).toList ++ blocks rest := by
  have hdrop : (run ++ '{' :: rest).dropWhile noBrace = '{' :: rest :=
    dropWhile_span hrun (by decide)
  have htake : (run ++ '{' :: rest).takeWhile noBrace = run := takeWhile_span hrun (by decide)
  rw [blocks]
  split
  · rename_i h'
    rw [hdrop] at h'
    cases h'
  · rename_i inside h'
    rw [hdrop] at h'
    obtain ⟨-, rfl⟩ := List.cons.inj h'
    split
    · rename_i after hclose
      have hinside : inside? rest = some (rest.takeWhile noBrace) := by
        rw [inside?, hclose]
        rfl
      have hrest : rest = rest.takeWhile noBrace ++ '}' :: after := by
        rw [← hclose, List.takeWhile_append_dropWhile]
      have hskip : blocks rest = blocks after := by
        rw [hrest]
        exact blocks_close (List.all_eq_true.1 List.all_takeWhile) after
      rw [htake, hinside, hskip]
      rfl
    · rename_i hopen
      have hinside : inside? rest = none := by
        rw [inside?, if_neg]
        intro hhead
        obtain ⟨after, hafter⟩ := List.head?_eq_some_iff.1 hhead
        exact hopen after hafter
      rw [hinside]
      rfl
  · rename_i c after hne h'
    rw [hdrop] at h'
    obtain ⟨rfl, rfl⟩ := List.cons.inj h'
    exact (hne rfl).elim

/-- The inside of the block that a brace begins, if it begins one. -/
def body? (c : Char) (rest : Text) : Option Text := if c = '{' then inside? rest else none

/-- **One brace of the scan.**  If it opens a block that the next brace closes, this is a block; and
what is behind the brace is scanned in any case. -/
theorem blocks_brace {run : Text} {c : Char} (hrun : BraceFree run) (hc : noBrace c = false)
    (rest : Text) :
    blocks (run ++ c :: rest) = ((body? c rest).map fun s => (run, s)).toList ++ blocks rest := by
  rcases eq_brace hc with rfl | rfl
  · exact blocks_open hrun rest
  · exact blocks_close hrun rest

/-! ### Texts put together -/

/-- What stands behind a text with a brace does not matter to what is before its first one. -/
theorem inside?_append {t : Text} (h : ¬ BraceFree t) (rest : Text) :
    inside? (t ++ rest) = inside? t := by
  rcases braceFree_or_exists_brace t with hfree | ⟨run, c, r, rfl, hrun, hc⟩
  · exact absurd hfree h
  · rw [List.append_assoc, List.cons_append, inside?_brace hrun hc, inside?_brace hrun hc]

/-- An opening brace closes nothing. -/
theorem inside?_append_open {run : Text} (hrun : BraceFree run) (t rest : Text) :
    inside? (t ++ (run ++ '{' :: rest)) = inside? t := by
  rcases braceFree_or_exists_brace t with hfree | ⟨s, c, r, rfl, hs, hc⟩
  · rw [inside?_of_braceFree hfree, ← List.append_assoc, inside?_brace (hfree.append hrun) (by decide),
      if_neg (by decide)]
  · rw [List.append_assoc, List.cons_append, inside?_brace hs hc, inside?_brace hs hc]

theorem not_braceFree_of_getLast? {t : Text} (h : t.getLast? = some '}') : ¬ BraceFree t := by
  intro hfree
  have hmem := hfree '}' (List.mem_of_getLast? h)
  exact absurd hmem (by decide)

/-- **Behind a closing brace the scan begins anew.** -/
theorem blocks_append {a : Text} (ha : a = [] ∨ a.getLast? = some '}') (b : Text) :
    blocks (a ++ b) = blocks a ++ blocks b := by
  induction a using braceInduction with
  | free a hfree =>
    rcases ha with rfl | hlast
    · rw [blocks_of_braceFree hfree]
      rfl
    · exact absurd hfree (not_braceFree_of_getLast? hlast)
  | brace run c rest hrun hc ih =>
    have hlast : (run ++ c :: rest).getLast? = some '}' :=
      ha.resolve_left (List.append_ne_nil_of_right_ne_nil run (List.cons_ne_nil c rest))
    rcases List.eq_nil_or_concat' rest with rfl | ⟨r, d, rfl⟩
    · rw [List.getLast?_concat] at hlast
      obtain rfl := Option.some.inj hlast
      rw [List.append_assoc, List.cons_append, blocks_close hrun, blocks_close hrun]
      exact ih (Or.inl rfl)
    · have hrest : (r ++ [d]).getLast? = some '}' := by
        rw [← List.cons_append, ← List.append_assoc, List.getLast?_concat] at hlast
        rw [List.getLast?_concat, hlast]
      rw [List.append_assoc, List.cons_append, blocks_brace hrun hc, blocks_brace hrun hc, body?,
        inside?_append (not_braceFree_of_getLast? hrest), ih (Or.inr hrest), List.append_assoc]
      rfl

/-- The brace-free run that a text ends with. -/
def lastRun (t : Text) : Text := t.rtakeWhile noBrace

theorem lastRun_of_braceFree {t : Text} (h : BraceFree t) : lastRun t = t :=
  List.rtakeWhile_eq_self_iff.2 h

theorem lastRun_brace {c : Char} (hc : noBrace c = false) (s t : Text) :
    lastRun (s ++ c :: t) = lastRun t := rtakeWhile_span hc

/-- **A block behind a text** adds to its run what the text ends with. -/
theorem blocks_append_block {run inside : Text} (hrun : BraceFree run) (hinside : BraceFree inside)
    (t rest : Text) : blocks (t ++ (run ++ '{' :: (inside ++ '}' :: rest))) =
      blocks t ++ (lastRun t ++ run, inside) :: blocks rest := by
  induction t using braceInduction with
  | free t hfree =>
    rw [← List.append_assoc, blocks_open (hfree.append hrun), blocks_of_braceFree hfree,
      lastRun_of_braceFree hfree, blocks_close hinside, inside?_eq_some_iff.2 ⟨hinside, rest, rfl⟩]
    rfl
  | brace s c r hs hc ih =>
    rw [List.append_assoc, List.cons_append, blocks_brace hs hc, blocks_brace hs hc, ih,
      lastRun_brace hc, body?, inside?_append_open hrun, List.append_assoc]
    rfl

/-! ### Places -/

/-- An opening brace that the next brace closes, with the longest brace-free run before it. -/
structure Innermost (t before run inside after : Text) : Prop where
  text : t = before ++ (run ++ '{' :: (inside ++ '}' :: after))
  run_free : BraceFree run
  inside_free : BraceFree inside
  left : ∀ c ∈ before.getLast?, noBrace c = false

/-- A block that stands in a text, with the place of its opening brace. -/
def PlacedIn (t : Text) (p : Nat × Text × Text) : Prop :=
  ∃ before after, Innermost t before p.2.1 p.2.2 after ∧ p.1 = (before ++ p.2.1).length

theorem not_placedIn_of_braceFree {t : Text} (h : BraceFree t) (p : Nat × Text × Text) :
    ¬ PlacedIn t p := by
  rintro ⟨before, after, hi, -⟩
  have hbrace : noBrace '{' = true := h _ (by rw [hi.text]; simp)
  exact absurd hbrace (by decide)

section

variable {run rest : Text} {c : Char} {p : Nat × Text × Text}

theorem PlacedIn.behind {q : Nat × Text × Text} (hc : noBrace c = false) (h : PlacedIn rest q) :
    PlacedIn (run ++ c :: rest) (run.length + 1 + q.1, q.2) := by
  obtain ⟨before, after, hi, hq⟩ := h
  refine ⟨run ++ c :: before, after, ⟨?_, hi.run_free, hi.inside_free, ?_⟩, ?_⟩
  · rw [hi.text]
    simp only [List.append_assoc, List.cons_append]
  · rw [List.getLast?_append, List.getLast?_cons]
    intro d hd
    cases hlast : before.getLast? with
    | none =>
      rw [hlast] at hd
      rwa [← Option.some.inj hd]
    | some x =>
      rw [hlast] at hd
      rw [← Option.some.inj hd]
      exact hi.left x hlast
  · show run.length + 1 + q.1 = _
    rw [hq]
    simp only [List.length_append, List.length_cons]
    omega

/-- A brace is behind the first one, or it is the first one. -/
theorem exists_of_brace {b w : Text} {d : Char} (h : run ++ c :: rest = b ++ d :: w)
    (hrun : BraceFree run) (hd : noBrace d = false) :
    ∃ y, b ++ [d] = run ++ c :: y ∧ rest = y ++ w ∧ ∀ x ∈ y.getLast?, x = d := by
  rcases List.append_eq_append_iff.1 h with ⟨x, rfl, hx⟩ | ⟨x, rfl, hx⟩
  · cases x with
    | nil =>
      obtain ⟨rfl, rfl⟩ := List.cons.inj hx
      exact ⟨[], by simp, rfl, nofun⟩
    | cons c' x =>
      obtain ⟨rfl, rfl⟩ := List.cons.inj hx
      exact ⟨x ++ [d], by simp, by simp, by simp⟩
  · cases x with
    | nil =>
      obtain ⟨rfl, rfl⟩ := List.cons.inj hx
      exact ⟨[], by simp, rfl, nofun⟩
    | cons d' x =>
      obtain ⟨rfl, -⟩ := List.cons.inj hx
      have hmem := hrun d (by simp)
      rw [hd] at hmem
      cases hmem

/-- **The blocks behind a brace, and the one that it begins.** -/
theorem placedIn_brace_iff (hrun : BraceFree run) (hc : noBrace c = false) :
    PlacedIn (run ++ c :: rest) p ↔ (∃ s, body? c rest = some s ∧ p = (run.length, run, s)) ∨
      ∃ q, PlacedIn rest q ∧ p = (run.length + 1 + q.1, q.2) := by
  constructor
  · obtain ⟨place, r, inside⟩ := p
    rintro ⟨before, after, hi, hp⟩
    dsimp only at hi hp
    rcases List.eq_nil_or_concat' before with rfl | ⟨b, d, rfl⟩
    · obtain ⟨rfl, rfl, rfl⟩ := span_unique hi.text hrun hi.run_free hc (by decide)
      have hbody : body? '{' (inside ++ '}' :: after) = some inside :=
        inside?_eq_some_iff.2 ⟨hi.inside_free, after, rfl⟩
      exact Or.inl ⟨inside, hbody, congrArg (·, run, inside) hp⟩
    · have hd : noBrace d = false := hi.left d (by simp)
      have htext := hi.text
      rw [List.append_assoc, List.singleton_append] at htext
      obtain ⟨y, hy, hrest, hlast⟩ := exists_of_brace htext hrun hd
      have hleft : ∀ x ∈ y.getLast?, noBrace x = false := by
        intro x hx
        rwa [hlast x hx]
      refine Or.inr ⟨((y ++ r).length, r, inside),
        ⟨y, after, ⟨hrest, hi.run_free, hi.inside_free, hleft⟩, rfl⟩, ?_⟩
      have hplace : place = run.length + 1 + (y ++ r).length := by
        rw [hp, hy]
        simp only [List.length_append, List.length_cons]
        omega
      rw [hplace]
  · rintro (⟨s, hs, rfl⟩ | ⟨q, hq, rfl⟩)
    · rcases eq_brace hc with rfl | rfl
      · obtain ⟨hfree, after, rfl⟩ := inside?_eq_some_iff.1 hs
        exact ⟨[], after, ⟨rfl, hrun, hfree, nofun⟩, rfl⟩
      · cases hs
    · exact hq.behind hc

end

/-- **The blocks of a text are its innermost ones**, each once, in the order of their places. -/
theorem exists_placed (t : Text) : ∃ ps : List (Nat × Text × Text), ps.map (·.2) = blocks t ∧
    (ps.Pairwise fun p q => p.1 < q.1) ∧ ∀ p, p ∈ ps ↔ PlacedIn t p := by
  induction t using braceInduction with
  | free t h =>
    refine ⟨[], (blocks_of_braceFree h).symm, List.Pairwise.nil, fun p => ?_⟩
    exact iff_of_false List.not_mem_nil (not_placedIn_of_braceFree h p)
  | brace run c rest hrun hc ih =>
    obtain ⟨qs, hblocks, hsorted, hmem⟩ := ih
    refine ⟨((body? c rest).map fun s => (run.length, run, s)).toList ++
      qs.map fun q => (run.length + 1 + q.1, q.2), ?_, ?_, fun p => ?_⟩
    · rw [blocks_brace hrun hc, ← hblocks, List.map_append, List.map_map]
      cases body? c rest <;> rfl
    · rw [List.pairwise_append, List.pairwise_map]
      refine ⟨?_, hsorted.imp fun h => Nat.add_lt_add_left h _, ?_⟩
      · cases body? c rest
        · exact List.Pairwise.nil
        · exact List.pairwise_singleton _ _
      · intro p hp q hq
        obtain ⟨s, -, rfl⟩ := Option.map_eq_some_iff.1 (Option.mem_toList.1 hp)
        obtain ⟨q', -, rfl⟩ := List.mem_map.1 hq
        show run.length < run.length + 1 + q'.1
        omega
    · rw [placedIn_brace_iff hrun hc, List.mem_append, Option.mem_toList,
        Option.map_eq_some_iff, List.mem_map]
      simp only [hmem, eq_comm]

end Outline.Stylesheet
