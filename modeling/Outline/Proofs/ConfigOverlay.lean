import Mathlib
import Outline.Config.File
import Outline.Proofs.JsonRoundTrip
import Outline.Proofs.PathResolution

/-!
# Configurations over the defaults

A JSON object overlays the configuration of a project that chooses nothing.

* `Config.Field` — the nine fields, each with its name, its type and the values that are written for it;
* `Config.Gives` — the members of an object are settings, one a field at most, and members with other
  names, in any order;
* `Config.Overlays` — a configuration has the settings in their fields and the defaults elsewhere;
* `Config.Misused` — a field stands twice, or has a value of another type or range;
* `Config.exists_gives_of_not_misused` — each object is of the first kind or the second;
* `Config.read?_object` — objects of the first kind stand for their overlay, and those of the second are
  refused, so that the defaults are loaded.

Members are read exactly if each field is (`ofMembers?_eq_some_iff`), and so one member is the step of the
induction (`ofMembers?_unknown`, `ofMembers?_known`): with another name it changes nothing, and with the
name of a field that no other member has it puts its value in place of the default.
-/

namespace Outline.Config

open Json (Gaps Member Spelled)

/-! ### Fields -/

/-- The fields of a configuration. -/
inductive Field where
  | maxSummariesPerFile
  | signatures
  | includeCalls
  | parallel
  | extensions
  | excludeDirs
  | excludePatterns
  | maxFileSize
  | otherFilesLimit
deriving DecidableEq

namespace Field

def name : Field → String
  | maxSummariesPerFile => "max_summaries_per_file"
  | signatures => "signatures"
  | includeCalls => "include_calls"
  | parallel => "parallel"
  | extensions => "extensions"
  | excludeDirs => "exclude_dirs"
  | excludePatterns => "exclude_patterns"
  | maxFileSize => "max_file_size"
  | otherFilesLimit => "other_files_limit"

def Value : Field → Type
  | maxSummariesPerFile | maxFileSize | otherFilesLimit => UInt64
  | signatures | includeCalls | parallel => Bool
  | extensions | excludeDirs | excludePatterns => List Text

def get : (f : Field) → Config → f.Value
  | maxSummariesPerFile, c => c.maxSummariesPerFile
  | signatures, c => c.signatures
  | includeCalls, c => c.includeCalls
  | parallel, c => c.parallel
  | extensions, c => c.extensions
  | excludeDirs, c => c.excludeDirs
  | excludePatterns, c => c.excludePatterns
  | maxFileSize, c => c.maxFileSize
  | otherFilesLimit, c => c.otherFilesLimit

def put : (f : Field) → f.Value → Config → Config
  | maxSummariesPerFile, n, c => { c with maxSummariesPerFile := n }
  | signatures, b, c => { c with signatures := b }
  | includeCalls, b, c => { c with includeCalls := b }
  | parallel, b, c => { c with parallel := b }
  | extensions, ts, c => { c with extensions := ts }
  | excludeDirs, ts, c => { c with excludeDirs := ts }
  | excludePatterns, ts, c => { c with excludePatterns := ts }
  | maxFileSize, n, c => { c with maxFileSize := n }
  | otherFilesLimit, n, c => { c with otherFilesLimit := n }

theorem get_put (f : Field) (x : f.Value) (c : Config) : f.get (f.put x c) = x := by
  cases f <;> rfl

theorem get_put_of_ne {f g : Field} (h : g ≠ f) (x : f.Value) (c : Config) :
    g.get (f.put x c) = g.get c := by
  cases f <;> cases g <;> first | rfl | exact absurd rfl h

theorem name_injective : Function.Injective name := by
  intro f g h
  cases f <;> cases g <;> first | rfl | exact absurd h (by decide)

theorem mem_fieldNames_iff {n : String} : n ∈ fieldNames ↔ ∃ f : Field, f.name = n := by
  constructor
  · intro h
    have hall : ∀ m ∈ fieldNames, m ∈ [maxSummariesPerFile, signatures, includeCalls, parallel,
        extensions, excludeDirs, excludePatterns, maxFileSize, otherFilesLimit].map name := by decide
    obtain ⟨f, -, hf⟩ := List.mem_map.1 (hall n h)
    exact ⟨f, hf⟩
  · intro h
    obtain ⟨f, hf⟩ := h
    rw [← hf]
    cases f <;> decide

end Field

/-! ### Values -/

/-- A number literal without sign, point and exponent, for a number of at most 64 bits. -/
def IsWordValue (n : UInt64) (v : Json) : Prop :=
  ∃ ds, v = .number ds ∧ (∀ c ∈ ds, c.isDigit = true) ∧ Text.natOfDigits ds = n.toNat

/-- What is written for a value of a field. -/
def Field.IsValue : (f : Field) → f.Value → Json → Prop
  | .maxSummariesPerFile, n, v | .maxFileSize, n, v | .otherFilesLimit, n, v => IsWordValue n v
  | .signatures, b, v | .includeCalls, b, v | .parallel, b, v => v = .bool b
  | .extensions, ts, v | .excludeDirs, ts, v | .excludePatterns, ts, v => v = .array (ts.map .string)

/-- The reader for a field. -/
def Field.read? : (f : Field) → Json → Option f.Value
  | .maxSummariesPerFile | .maxFileSize | .otherFilesLimit => Json.natural?
  | .signatures | .includeCalls | .parallel => Json.bool?
  | .extensions | .excludeDirs | .excludePatterns => Json.strings?

theorem natural?_eq_some_iff {n : UInt64} {v : Json} : v.natural? = some n ↔ IsWordValue n v := by
  cases v with
  | number ds =>
    have hlt : n.toNat < UInt64.size := n.toNat_lt_size
    rw [Json.natural?]
    constructor
    · intro h
      split at h
      · rename_i hds
        obtain ⟨hdigits, hrange⟩ := Bool.and_eq_true_iff.1 hds
        refine ⟨ds, rfl, List.all_eq_true.1 hdigits, ?_⟩
        rw [← Option.some.inj h, UInt64.toNat_ofNat_of_lt' (of_decide_eq_true hrange)]
      · cases h
    · intro h
      obtain ⟨ds', hds', hdigits, hn⟩ := h
      cases hds'
      rw [hn, if_pos, UInt64.ofNat_toNat]
      rw [Bool.and_eq_true_iff, decide_eq_true_iff]
      exact ⟨List.all_eq_true.2 hdigits, hlt⟩
  | _ => simp [Json.natural?, IsWordValue]

theorem bool?_eq_some_iff {b : Bool} {v : Json} : v.bool? = some b ↔ v = .bool b := by
  cases v <;> simp [Json.bool?]

theorem string?_eq_some_iff {t : Text} {v : Json} : v.string? = some t ↔ v = .string t := by
  cases v <;> simp [Json.string?]

theorem strings?_eq_some_iff {ts : List Text} {v : Json} :
    v.strings? = some ts ↔ v = .array (ts.map .string) := by
  cases v with
  | array items =>
    show items.mapM Json.string? = some ts ↔ _
    rw [Json.array.injEq]
    constructor
    · intro h
      have hback : ts.mapM (fun t => some (Json.string t)) = some items :=
        mapM_of_inverse (fun v t hv => congrArg some (string?_eq_some_iff.1 hv).symm) h
      rw [mapM_eq_some_iff] at hback
      apply List.map_injective_iff.2 (Option.some_injective Json)
      rw [← hback, List.map_map]
      rfl
    · intro h
      rw [h, mapM_eq_some_iff, List.map_map]
      rfl
  | _ => simp [Json.strings?, Json.array?]

theorem Field.read?_eq_some_iff {f : Field} {x : f.Value} {v : Json} :
    f.read? v = some x ↔ f.IsValue x v := by
  cases f with
  | maxSummariesPerFile | maxFileSize | otherFilesLimit => exact natural?_eq_some_iff
  | signatures | includeCalls | parallel => exact bool?_eq_some_iff
  | extensions | excludeDirs | excludePatterns => exact strings?_eq_some_iff

/-- **Which number literals a field of numbers takes**: those of a whole part alone, below two to the power
of 64.  Negative numbers, fractions and powers are none, whatever their value. -/
theorem exists_isWordValue_iff {l : Text} (hl : Json.IsNumber l) :
    (∃ n, IsWordValue n (.number l)) ↔ Json.IsWhole l ∧ Text.natOfDigits l < UInt64.size := by
  constructor
  · intro h
    obtain ⟨n, ds, hds, hdigits, hn⟩ := h
    cases hds
    refine ⟨?_, by rw [hn]; exact n.toNat_lt_size⟩
    cases hl with
    | @unsigned w f e hw hf he =>
      cases hf with
      | point _ => exact absurd (hdigits '.' (by simp)) (by decide)
      | absent =>
        cases he with
        | absent => simpa using hw
        | @power e sign ds he _ _ =>
          have hdigit := hdigits e (by simp)
          cases he with
          | inl he => exact absurd (he ▸ hdigit) (by decide)
          | inr he => exact absurd (he ▸ hdigit) (by decide)
    | negative _ _ _ => exact absurd (hdigits '-' List.mem_cons_self) (by decide)
  · intro h
    obtain ⟨hw, hlt⟩ := h
    refine ⟨UInt64.ofNat (Text.natOfDigits l), l, rfl, ?_, (UInt64.toNat_ofNat_of_lt' hlt).symm⟩
    cases hw with
    | zero => exact List.forall_mem_singleton.2 rfl
    | digits hds _ => exact hds.digit

/-! ### One member -/

section

variable {ms : List (Text × Json)} {v : Json} {α : Type} {read : Json → Option α} {d x : α}
  {name : String}

theorem field?_cons_of_ne {k : Text} (h : k ≠ name.toList) :
    field? ((k, v) :: ms) name read d = field? ms name read d := by
  rw [field?, List.filter_cons_of_neg (by simp [h]), field?]

theorem field?_cons_of_fresh (h : ∀ m ∈ ms, m.1 ≠ name.toList) :
    field? ((name.toList, v) :: ms) name read d = read v := by
  rw [field?, List.filter_cons_of_pos (by simp), List.filter_eq_nil_iff.2 fun m hm => by simp [h m hm]]

/-- Where a field can be read, one member at most has its name, and its value is read. -/
theorem of_field?_eq_some (h : field? ms name read d = some x) :
    (ms.filter (·.1 == name.toList)).length ≤ 1 ∧
      ∀ v, (name.toList, v) ∈ ms → ∃ y, read v = some y := by
  have hmem : ∀ v, (name.toList, v) ∈ ms → (name.toList, v) ∈ ms.filter (·.1 == name.toList) :=
    fun v hv => List.mem_filter.2 ⟨hv, beq_self_eq_true _⟩
  rw [field?] at h
  split at h
  · rename_i hnone
    rw [hnone] at hmem ⊢
    exact ⟨Nat.zero_le 1, fun v hv => by cases hmem v hv⟩
  · rename_i k w hone
    rw [hone] at hmem ⊢
    refine ⟨Nat.le_refl 1, fun v hv => ⟨x, ?_⟩⟩
    cases List.mem_singleton.1 (hmem v hv)
    exact h
  · cases h

/-- A configuration is read from members exactly if each of its fields is. -/
theorem ofMembers?_eq_some_iff {c : Config} :
    ofMembers? ms = some c ↔ ∀ f : Field, field? ms f.name f.read? (f.get standard) = some (f.get c) := by
  simp only [ofMembers?, Option.bind_eq_bind, Option.bind_eq_some_iff, Option.some.injEq]
  constructor
  · intro h f
    obtain ⟨_, hmost, _, hsignatures, _, hcalls, _, hparallel, _, hextensions, _, hdirs, _, hpatterns,
      _, hsize, _, hothers, rfl⟩ := h
    cases f with
    | maxSummariesPerFile => exact hmost
    | signatures => exact hsignatures
    | includeCalls => exact hcalls
    | parallel => exact hparallel
    | extensions => exact hextensions
    | excludeDirs => exact hdirs
    | excludePatterns => exact hpatterns
    | maxFileSize => exact hsize
    | otherFilesLimit => exact hothers
  · intro h
    exact ⟨_, h .maxSummariesPerFile, _, h .signatures, _, h .includeCalls, _, h .parallel,
      _, h .extensions, _, h .excludeDirs, _, h .excludePatterns, _, h .maxFileSize,
      _, h .otherFilesLimit, rfl⟩

/-- A member with another name changes nothing. -/
theorem ofMembers?_unknown {k : Text} {c : Config} (hk : ∀ f : Field, k ≠ f.name.toList)
    (h : ofMembers? ms = some c) : ofMembers? ((k, v) :: ms) = some c := by
  rw [ofMembers?_eq_some_iff] at h ⊢
  intro f
  rw [field?_cons_of_ne (hk f)]
  exact h f

/-- A value for a field that no other member names is put in place of the default. -/
theorem ofMembers?_known {f : Field} {x : f.Value} {c : Config} (hv : f.read? v = some x)
    (hfresh : ∀ m ∈ ms, m.1 ≠ f.name.toList) (h : ofMembers? ms = some c) :
    ofMembers? ((f.name.toList, v) :: ms) = some (f.put x c) := by
  rw [ofMembers?_eq_some_iff] at h ⊢
  intro g
  by_cases hg : g = f
  · subst hg
    rw [field?_cons_of_fresh hfresh, hv, Field.get_put]
  · have hname : f.name.toList ≠ g.name.toList := fun heq =>
      hg (Field.name_injective (String.toList_inj.1 heq)).symm
    rw [field?_cons_of_ne hname, Field.get_put_of_ne hg]
    exact h g

end

/-! ### Settings -/

/-- A value for one of the fields. -/
structure Setting where
  field : Field
  value : field.Value

/-- The members of an object are those of the settings, in their order, with members of other names
anywhere between them; no field is set twice. -/
inductive Gives : List (Text × Json) → List Setting → Prop
  | nil : Gives [] []
  | unknown {k : Text} {v : Json} {ms : List (Text × Json)} {ss : List Setting} :
      (∀ n ∈ fieldNames, k ≠ n.toList) → Gives ms ss → Gives ((k, v) :: ms) ss
  | known {s : Setting} {v : Json} {ms : List (Text × Json)} {ss : List Setting} :
      s.field.IsValue s.value v → (∀ m ∈ ms, m.1 ≠ s.field.name.toList) → Gives ms ss →
        Gives ((s.field.name.toList, v) :: ms) (s :: ss)

/-- The defaults with the settings put in their place. -/
def overlay (ss : List Setting) : Config := ss.foldr (fun s c => s.field.put s.value c) standard

/-- A configuration has the settings in their fields, and the default in all others. -/
structure Overlays (ss : List Setting) (c : Config) : Prop where
  given : ∀ s ∈ ss, s.field.get c = s.value
  rest : ∀ f, (∀ s ∈ ss, s.field ≠ f) → f.get c = f.get standard

/-- A field stands twice, or what is written for it is no value of its type and range. -/
inductive Misused (ms : List (Text × Json)) : Prop
  | twice {f : Field} : 2 ≤ (ms.filter (·.1 == f.name.toList)).length → Misused ms
  | misfit {f : Field} {v : Json} : (f.name.toList, v) ∈ ms → (∀ x, ¬f.IsValue x v) → Misused ms

variable {ms : List (Text × Json)} {ss : List Setting}

theorem Gives.name_mem (h : Gives ms ss) {s : Setting} (hs : s ∈ ss) :
    ∃ m ∈ ms, m.1 = s.field.name.toList := by
  induction h with
  | nil => cases hs
  | unknown _ _ ih =>
    obtain ⟨m, hm, hname⟩ := ih hs
    exact ⟨m, List.mem_cons_of_mem _ hm, hname⟩
  | known _ _ _ ih =>
    cases List.mem_cons.1 hs with
    | inl hs => exact ⟨_, List.mem_cons_self, by rw [hs]⟩
    | inr hs =>
      obtain ⟨m, hm, hname⟩ := ih hs
      exact ⟨m, List.mem_cons_of_mem _ hm, hname⟩

theorem Gives.overlays (h : Gives ms ss) : Overlays ss (overlay ss) := by
  induction h with
  | nil => exact ⟨fun s hs => absurd hs List.not_mem_nil, fun f _ => rfl⟩
  | unknown _ _ ih => exact ih
  | @known s v ms ss _ hfresh hgives ih =>
    have hother : ∀ s' ∈ ss, s'.field ≠ s.field := by
      intro s' hs' heq
      obtain ⟨m, hm, hname⟩ := hgives.name_mem hs'
      exact hfresh m hm (hname.trans (by rw [heq]))
    refine ⟨fun s' hs' => ?_, fun f hf => ?_⟩
    · cases List.mem_cons.1 hs' with
      | inl hs' =>
        rw [hs']
        exact s.field.get_put s.value (overlay ss)
      | inr hs' => exact (Field.get_put_of_ne (hother s' hs') _ _).trans (ih.given s' hs')
    · have hne : f ≠ s.field := fun heq => hf s List.mem_cons_self heq.symm
      exact (Field.get_put_of_ne hne _ _).trans
        (ih.rest f fun s' hs' => hf s' (List.mem_cons_of_mem s hs'))

/-- **Members that give settings stand for the overlay.** -/
theorem ofMembers?_of_gives (h : Gives ms ss) : ofMembers? ms = some (overlay ss) := by
  induction h with
  | nil => rfl
  | unknown hk _ ih =>
    exact ofMembers?_unknown (fun f => hk f.name (Field.mem_fieldNames_iff.2 ⟨f, rfl⟩)) ih
  | known hv hfresh _ ih =>
    exact ofMembers?_known (Field.read?_eq_some_iff.2 hv) hfresh ih

/-- **Members that misuse a field are refused.** -/
theorem ofMembers?_of_misused (h : Misused ms) : ofMembers? ms = none := by
  rw [Option.eq_none_iff_forall_ne_some]
  intro c hc
  cases h with
  | @twice f htwice =>
    have hle := (of_field?_eq_some (ofMembers?_eq_some_iff.1 hc f)).1
    omega
  | @misfit f v hmem hmisfit =>
    obtain ⟨x, hx⟩ := (of_field?_eq_some (ofMembers?_eq_some_iff.1 hc f)).2 v hmem
    exact hmisfit x (Field.read?_eq_some_iff.1 hx)

/-- There is no third kind of object. -/
theorem exists_gives_of_not_misused (h : ¬Misused ms) : ∃ ss, Gives ms ss := by
  induction ms with
  | nil => exact ⟨[], .nil⟩
  | cons m ms ih =>
    obtain ⟨k, v⟩ := m
    have hrest : ¬Misused ms := by
      intro hmisused
      apply h
      cases hmisused with
      | @twice f htwice =>
        exact .twice (htwice.trans ((List.sublist_cons_self _ ms).filter _).length_le)
      | misfit hmem hmisfit => exact .misfit (List.mem_cons_of_mem _ hmem) hmisfit
    obtain ⟨ss, hss⟩ := ih hrest
    by_cases hk : ∀ n ∈ fieldNames, k ≠ n.toList
    · exact ⟨ss, .unknown hk hss⟩
    · simp only [not_forall, not_not] at hk
      obtain ⟨n, hn, rfl⟩ := hk
      obtain ⟨f, rfl⟩ := Field.mem_fieldNames_iff.1 hn
      have hvalue : ∃ x, f.IsValue x v := by
        by_contra hnone
        exact h (.misfit List.mem_cons_self fun x hx => hnone ⟨x, hx⟩)
      obtain ⟨x, hx⟩ := hvalue
      refine ⟨⟨f, x⟩ :: ss, Gives.known (s := ⟨f, x⟩) hx (fun m hm hname => ?_) hss⟩
      apply h
      apply Misused.twice (f := f)
      rw [List.filter_cons_of_pos (by simp), List.length_cons]
      have hpos : 0 < (ms.filter (·.1 == f.name.toList)).length :=
        List.length_pos_of_mem (List.mem_filter.2 ⟨hm, by simp [hname]⟩)
      omega

/-! ### Texts and files -/

theorem load_of_holdsText {s : Store} {p : Path} {t : Text} {f : File} (h : s.HoldsText p t f) :
    load s p = .ok ((read? t).getD standard) := by
  have hread := Store.readText_ok_iff.2 h
  have hhas : s.has p = true := by
    rw [Store.readText] at hread
    split at hread
    · rename_i hfile
      exact Store.has_of_read hfile
    · cases hread
  rw [load, if_pos hhas, hread]

/-- **A configuration is read over the defaults.**  Let a text be written by the grammar of JSON, with any
blanks, as an object whose names are texts.  If its members are settings, one a field at most, and members
with other names and any values, it stands for the defaults with exactly these settings in their place.  If
a field stands twice, or has a value of another type or range, it stands for nothing, and a file with this
text is loaded as the defaults. -/
theorem read?_object {ms : List (Text × Json)} {t : Text} (h : Spelled (.object ms) t)
    (g : Gaps) :
    (∀ ss, Gives ms ss → read? (g.around t) = some (overlay ss) ∧ Overlays ss (overlay ss) ∧
      ∀ (s : Store) (p : Path) (f : File), s.HoldsText p (g.around t) f →
        load s p = .ok (overlay ss)) ∧
      (Misused ms → read? (g.around t) = none ∧
        ∀ (s : Store) (p : Path) (f : File), s.HoldsText p (g.around t) f →
          load s p = .ok standard) := by
  have hread : read? (g.around t) = ofMembers? ms := by
    rw [read?, Json.parse?_of_spelled h g]
    rfl
  refine ⟨fun ss hss => ?_, fun hmisused => ?_⟩
  · have hoverlay := hread.trans (ofMembers?_of_gives hss)
    refine ⟨hoverlay, hss.overlays, fun s p f hf => ?_⟩
    rw [load_of_holdsText hf, hoverlay]
    rfl
  · have hnone := hread.trans (ofMembers?_of_misused hmisused)
    refine ⟨hnone, fun s p f hf => ?_⟩
    rw [load_of_holdsText hf, hnone]
    rfl

def noGaps : Gaps := ⟨[], [], Json.blank_nil, Json.blank_nil⟩

/-- A member whose name is written as it is, with a space in front of its value. -/
def plainMember (name : String)
    (h : name.toList.all fun c => 0x20 ≤ c.toNat ∧ c ≠ '"' ∧ c ≠ '\\') (v : Json)
    (written : String) : Member :=
  ⟨⟨v, written.toList, ⟨[' '], [], List.forall_mem_singleton.2 rfl, Json.blank_nil⟩⟩,
    name.toList.map .char, name.toList, .ofChars (List.all_iff_forall_prop.1 h), noGaps⟩

/-- A member whose name denotes no text. -/
def halfMember : Member :=
  ⟨⟨.array [.number "1.5e3".toList], "[1.5e3]".toList, noGaps⟩, [.unit 0xd800], "\\ud800".toList,
    .cons (.unit rfl) .nil, noGaps⟩

theorem spelled_halfMember : Spelled halfMember.value halfMember.written := by
  have hdigits : ∀ d : Char, d.isDigit = true → Json.IsDigits [d] := fun d hd =>
    ⟨by simp, by simpa using hd⟩
  have hnumber : Json.IsNumber "1.5e3".toList :=
    .unsigned (.digits (hdigits '1' rfl) (by decide)) (.point (hdigits '5' rfl))
      (@Json.IsExponent.power 'e' [] ['3'] (.inl rfl) (by decide) (hdigits '3' rfl))
  exact @Spelled.array [⟨.number "1.5e3".toList, "1.5e3".toList, noGaps⟩] (by simp)
    (List.forall_mem_singleton.2 (.number hnumber))

/-- Two settings, and between them a member with another name. -/
def mixedMembers : List Member :=
  [plainMember "max_file_size" rfl (.number "7".toList) "7",
    plainMember "x" rfl .brokenString "\x7b\"\\ud800\":[1.5e3]\x7d",
    plainMember "signatures" rfl (.bool false) "false"]

def mixedText : Text :=
  "\x7b\"max_file_size\": 7,\"x\": \x7b\"\\ud800\":[1.5e3]\x7d,\"signatures\": false\x7d".toList

/-- The same setting twice. -/
def twiceMembers : List Member :=
  List.replicate 2 (plainMember "parallel" rfl (.bool true) "true")

def twiceText : Text := "\x7b\"parallel\": true,\"parallel\": true\x7d".toList

def mixedSettings : List Setting := [⟨.maxFileSize, (7 : UInt64)⟩, ⟨.signatures, false⟩]

theorem gives_mixed : Gives [("max_file_size".toList, .number "7".toList), ("x".toList, .brokenString),
    ("signatures".toList, .bool false)] mixedSettings := by
  have hseven : IsWordValue 7 (.number "7".toList) :=
    ⟨_, rfl, List.forall_mem_singleton.2 rfl, by decide⟩
  refine .known (s := ⟨.maxFileSize, (7 : UInt64)⟩) hseven ?_ (.unknown (by decide) ?_)
  · simp [Field.name]
  · exact .known (s := ⟨.signatures, false⟩) rfl (by simp) .nil

theorem read?_object_mixed :
    read? mixedText = some { standard with signatures := false, maxFileSize := 7 } ∧
      read? twiceText = none ∧
      load (Store.empty.put [fileName.utf8] (.file ⟨twiceText.utf8, none⟩))
        (.ofString "/codebrief.json") = .ok standard := by
  have hseven : Spelled (.number "7".toList) "7".toList := .number (Json.isNumber_ofNat 7)
  have hx : Spelled .brokenString "\x7b\"\\ud800\":[1.5e3]\x7d".toList :=
    @Spelled.object [halfMember] (by simp) (List.forall_mem_singleton.2 spelled_halfMember)
  have hmixed := @Spelled.object mixedMembers (by simp [mixedMembers]) (List.forall_mem_cons.2
    ⟨hseven, List.forall_mem_cons.2 ⟨hx, List.forall_mem_singleton.2 (.bool false)⟩⟩)
  have htwice := @Spelled.object twiceMembers (by simp [twiceMembers])
    (List.forall_mem_cons.2 ⟨.bool true, List.forall_mem_singleton.2 (.bool true)⟩)
  have hmisused : Misused [("parallel".toList, .bool true), ("parallel".toList, .bool true)] :=
    .twice (f := .parallel) (by decide)
  obtain ⟨hmixed, -, -⟩ := (read?_object hmixed noGaps).1 _ gives_mixed
  obtain ⟨hnone, hload⟩ := (read?_object htwice noGaps).2 hmisused
  exact ⟨hmixed, hnone, hload _ _ _ (Store.readText_ok_iff.1 (by cbv))⟩

end Outline.Config
