import Mathlib.Data.List.TakeWhile
import Mathlib.Tactic.NormNum
import FyralisCore.Models.Falsifier

/-! The windows of falsifiers (`parse_within_window`): which texts that start with a `P` it
accepts, and what else than a positive window or a `MalformedFalsifierError` comes out. -/
namespace FyralisCore.Models

open List
open Acts (stripped)

variable {rules : FalsifierRules}

def WindowNumber.text (number : WindowNumber) : List Char :=
  number.whole ++ if number.fraction = [] then [] else '.' :: number.fraction

structure WindowNumber.Valid (rules : FalsifierRules) (number : WindowNumber) : Prop where
  nonempty : number.whole ≠ []
  whole : ∀ char ∈ number.whole, rules.isDigit char
  fraction : ∀ char ∈ number.fraction, rules.isDigit char

def part (unit : Char) (number : Option WindowNumber) : List Char :=
  number.elim [] fun number => number.text ++ [unit]

def parts (units : List Char) (numbers : List (Option WindowNumber)) : List Char :=
  (List.zipWith part units numbers).flatten

/-- `[nY][nM][nW][nD]`, and what stands after it when there is a `T`. -/
def IsoDuration.text (duration : IsoDuration) : List Char :=
  parts dateUnits duration.date ++
    ((if duration.marked then ['T'] else []) ++ parts timeUnits duration.time)

def Numbers (rules : FalsifierRules) (units : List Char) (numbers : List (Option WindowNumber)) :
    Prop :=
  numbers.length = units.length ∧ ∀ number, some number ∈ numbers → number.Valid rules

def HasComponent (numbers : List (Option WindowNumber)) : Prop :=
  ∃ number, some number ∈ numbers

/-- `P[nY][nM][nW][nD][T[nH][nM][nS]]`: a component, and one after a `T`; no hours, minutes or
seconds without it. -/
structure Documented (rules : FalsifierRules) (duration : IsoDuration) : Prop where
  date : Numbers rules dateUnits duration.date
  time : Numbers rules timeUnits duration.time
  component : HasComponent (duration.date ++ duration.time)
  marker : duration.marked ↔ HasComponent duration.time

def LettersOnly (rules : FalsifierRules) : Prop :=
  ∀ char ∈ ['.', 'T', 'Y', 'M', 'W', 'D', 'H', 'S'], rules.decimal char = none

theorem LettersOnly.units {units : List Char} (hl : LettersOnly rules)
    (hu : ∀ unit ∈ units, unit ∈ ['Y', 'M', 'W', 'D', 'H', 'S']) :
    ∀ unit ∈ units, rules.decimal unit = none ∧ unit ≠ '.' := by
  intro unit hun
  have hm := hu unit hun
  exact ⟨hl unit (by simp at hm ⊢; tauto), by rintro rfl; simp at hm⟩

theorem asciiRules_lettersOnly : LettersOnly asciiRules := by
  simp [LettersOnly, asciiRules, Char.isDigit]

theorem span_eq {p : Char → Bool} {body : List Char} (rest : List Char) (hb : ∀ char ∈ body, p char)
    (ht : ∀ char ∈ rest.head?, p char = false) :
    (body ++ rest).takeWhile p = body ∧ (body ++ rest).dropWhile p = rest := by
  rw [takeWhile_append_of_pos hb, dropWhile_append_of_pos hb]
  cases rest with
  | nil => simp
  | cons char rest =>
    have hs := ht char rfl
    simp [hs]

theorem windowNumber_text {number : WindowNumber} (hv : number.Valid rules)
    (hl : LettersOnly rules) {unit : Char} (hu : rules.decimal unit = none)
    (hdt : unit ≠ '.') (rest : List Char) :
    windowNumber rules (number.text ++ unit :: rest) = some (number, unit :: rest) := by
  obtain ⟨whole, fraction⟩ := number
  have hs : rules.isDigit unit = false := by simp [FalsifierRules.isDigit, hu]
  have hp : rules.isDigit '.' = false := by
    simp [FalsifierRules.isDigit, hl '.' (by simp)]
  unfold windowNumber WindowNumber.text
  by_cases hf : fraction = []
  · subst hf
    obtain ⟨ht, hd⟩ := span_eq (unit :: rest) hv.whole (by simp [hs])
    simp only [if_true, append_nil, ht, hd, if_neg hv.nonempty]
    split
    · next he => cases he; exact absurd rfl hdt
    · rfl
  · obtain ⟨ht, hd⟩ := span_eq ('.' :: (fraction ++ unit :: rest)) hv.whole (by simp [hp])
    obtain ⟨ht', hd'⟩ := span_eq (unit :: rest) hv.fraction (by simp [hs])
    simp [if_neg hf, append_assoc, cons_append, ht, hd, if_neg hv.nonempty, ht', hd']

theorem windowNumber_sound (ho : windowNumber rules text = some (number, rest)) :
    number.Valid rules ∧ text = number.text ++ rest := by
  have hd : ∀ text : List Char, ∀ char ∈ text.takeWhile rules.isDigit, rules.isDigit char :=
    fun _ _ => mem_takeWhile_imp
  have hs := takeWhile_append_dropWhile (p := rules.isDigit) (l := text)
  unfold windowNumber at ho
  dsimp only at ho
  split at ho
  · cases ho
  · next hw =>
    split at ho
    · next t ht =>
      have hsp' := takeWhile_append_dropWhile (p := rules.isDigit) (l := t)
      split at ho
      · cases ho
        exact ⟨⟨hw, hd _, by simp⟩, by simp [WindowNumber.text, hs]⟩
      · next hf =>
        cases ho
        refine ⟨⟨hw, hd _, hd _⟩, ?_⟩
        rw [WindowNumber.text, if_neg hf, append_assoc, cons_append, hsp', ← ht, hs]
    · cases ho
      exact ⟨⟨hw, hd _, by simp⟩, by simp [WindowNumber.text, hs]⟩

/-- Before the end and before a `T` there is no number. -/
def Stops (rules : FalsifierRules) (text : List Char) : Prop :=
  ∀ char ∈ text.head?, rules.decimal char = none

theorem windowComponent_of_stops (hs : Stops rules text) (unit : Char) :
    windowComponent rules unit text = (none, text) := by
  have hn : windowNumber rules text = none := by
    cases text with
    | nil => simp [windowNumber]
    | cons char text =>
      have hst : rules.isDigit char = false := by
        simp [FalsifierRules.isDigit, hs char rfl]
      simp [windowNumber, hst]
  simp [windowComponent, hn]

theorem Numbers.tail (hn : Numbers rules (unit :: units)
      (number :: numbers)) : Numbers rules units numbers :=
  ⟨Nat.succ.inj hn.1, fun other hm => hn.2 other (.tail _ hm)⟩

theorem parts_start (hn : Numbers rules units numbers) (ht : Stops rules rest) :
    Stops rules (parts units numbers ++ rest) ∨
      ∃ (number : WindowNumber) (unit : Char) (later : List Char), number.Valid rules ∧
      unit ∈ units ∧ parts units numbers ++ rest = number.text ++ unit :: later := by
  induction units generalizing numbers with
  | nil => exact .inl (by simpa [parts] using ht)
  | cons unit units ih =>
    cases numbers with
    | nil => cases hn.1
    | cons number numbers =>
      cases number with
      | none =>
        refine (ih hn.tail).imp_right ?_
        rintro ⟨number, later, text, hv, hu, htx⟩
        exact ⟨number, later, text, hv, .tail _ hu, htx⟩
      | some number =>
        refine .inr ⟨number, unit, parts units numbers ++ rest, hn.2 number (.head _), .head _, ?_⟩
        simp [parts, part]

theorem windowComponents_parts (hl : LettersOnly rules)
    (hu : units.Nodup) (hn : ∀ unit ∈ units, rules.decimal unit = none ∧ unit ≠ '.')
    (hname : Numbers rules units numbers) (ht : Stops rules rest) :
    windowComponents rules units (parts units numbers ++ rest) = (numbers, rest) := by
  induction units generalizing numbers with
  | nil => rw [length_eq_zero_iff.mp hname.1]; rfl
  | cons unit units ih =>
    obtain ⟨hf, hu⟩ := nodup_cons.mp hu
    have hothers := fun other hm => hn other (.tail _ hm)
    cases numbers with
    | nil => cases hname.1
    | cons number numbers =>
      have hc : windowComponent rules unit (parts (unit :: units) (number :: numbers) ++
          rest) = (number, parts units numbers ++ rest) := by
        cases number with
        | none =>
          -- What follows is another unit's component, which is left alone.
          change windowComponent rules unit (parts units numbers ++ rest) = _
          rcases parts_start hname.tail ht with hs | ⟨number, other, u, hv, ho, htx⟩
          · exact windowComponent_of_stops hs unit
          · have hne : other ≠ unit := fun he => hf (he ▸ ho)
            obtain ⟨hd, hdt⟩ := hothers other ho
            rw [htx, windowComponent, windowNumber_text hv hl hd hdt]
            simp [hne]
        | some number =>
          obtain ⟨hd, hdt⟩ := hn unit (.head _)
          have htx : parts (unit :: units) (some number :: numbers) ++ rest =
              number.text ++ unit :: (parts units numbers ++ rest) := by
            simp [parts, part]
          rw [htx, windowComponent, windowNumber_text (hname.2 number (.head _)) hl hd hdt]
          simp
      rw [windowComponents, hc]
      simp [ih hu hothers hname.tail]

theorem windowComponent_sound (hm : windowComponent rules unit text = (found, rest)) :
    (∀ number, found = some number → number.Valid rules) ∧ text = part unit found ++ rest := by
  unfold windowComponent at hm
  split at hm
  · next hn =>
    obtain ⟨hv, ht⟩ := windowNumber_sound hn
    split at hm
    · next he =>
      cases hm
      cases he
      simpa [part, ht] using hv
    · cases hm
      simp [part]
  · cases hm
    simp [part]

theorem windowComponents_sound (hmt : windowComponents rules units text = (numbers, rest)) :
    Numbers rules units numbers ∧ text = parts units numbers ++ rest := by
  induction units generalizing text numbers with
  | nil => cases hmt; simp [Numbers, parts]
  | cons unit units ih =>
    rw [windowComponents] at hmt
    cases h1 : windowComponent rules unit text with
    | mk found left =>
      cases hlt : windowComponents rules units left with
      | mk others last =>
        simp only [h1, hlt] at hmt
        cases hmt
        obtain ⟨hv, ht⟩ := windowComponent_sound h1
        obtain ⟨⟨hln, ho⟩, hl⟩ := ih hlt
        refine ⟨⟨congrArg (· + 1) hln, fun number hm => ?_⟩, ?_⟩
        · rcases mem_cons.mp hm with he | hm
          · exact hv number he.symm
          · exact ho number hm
        · simp [ht, hl, parts]

variable {duration : IsoDuration}

theorem windowMarker_sound (hm : windowMarker text = (marked, rest)) :
    text = (if marked then ['T'] else []) ++ rest := by
  unfold windowMarker at hm
  split at hm <;> cases hm <;> simp

theorem isoDuration_sound (hm : isoDuration rules text = some duration) :
    Numbers rules dateUnits duration.date ∧ Numbers rules timeUnits duration.time ∧
      text = duration.text := by
  unfold isoDuration at hm
  cases hd : windowComponents rules dateUnits text with
  | mk date left =>
    cases hmr : windowMarker left with
    | mk marked u =>
      cases ht : windowComponents rules timeUnits u with
      | mk time last =>
        simp only [hd, hmr, ht] at hm
        obtain ⟨hdt, rfl⟩ := windowComponents_sound hd
        obtain ⟨htm, rfl⟩ := windowComponents_sound ht
        split at hm
        · next hl =>
          cases hm
          refine ⟨hdt, htm, ?_⟩
          rw [windowMarker_sound hmr, hl, append_nil, IsoDuration.text]
        · cases hm

theorem parts_of_none (hn : ∀ number, some number ∉ numbers) : parts units numbers = [] := by
  induction numbers generalizing units with
  | nil => cases units <;> rfl
  | cons number numbers ih =>
    cases units with
    | nil => rfl
    | cons unit units =>
      have h1 : number = none :=
        Option.eq_none_iff_forall_ne_some.mpr fun v he => hn v (he ▸ .head _)
      have ht : parts units numbers = [] := ih fun v hm => hn v (.tail _ hm)
      simpa [parts, part, h1] using ht

theorem isoDuration_text (hl : LettersOnly rules) (hs : Documented rules duration) :
    isoDuration rules duration.text = some duration := by
  obtain ⟨date, marked, time⟩ := duration
  have ht := windowComponents_parts hl (by decide) (hl.units (by simp [timeUnits]))
    hs.time (show Stops rules [] by simp [Stops])
  have hmr : windowMarker ((if marked then ['T'] else []) ++ parts timeUnits time) =
      (marked, parts timeUnits time) := by
    cases marked with
    | true => rfl
    | false =>
      rw [parts_of_none fun number hm => nomatch hs.marker.mpr ⟨number, hm⟩]
      rfl
  have hst : Stops rules ((if marked then ['T'] else []) ++ parts timeUnits time) := by
    cases marked with
    | true => simpa [Stops] using hl 'T' (by simp)
    | false =>
      rw [parts_of_none fun number hm => nomatch hs.marker.mpr ⟨number, hm⟩]
      simp [Stops]
  have hd := windowComponents_parts hl (by decide) (hl.units (by simp [dateUnits])) hs.date hst
  rw [append_nil] at ht
  simp [isoDuration, IsoDuration.text, hd, hmr, ht]

/-! ### The texts that start with a `P` -/

def Spells (text : String) (duration : IsoDuration) : Prop :=
  (stripped text).map upperCase = 'P' :: duration.text

def Positive (rules : FalsifierRules) (duration : IsoDuration) : Prop :=
  (duration.total rules).any (· ≤ 0) = false

/-- The duration is one that a `timedelta` can have. -/
def InRange (rules : FalsifierRules) (duration : IsoDuration) : Prop :=
  ∃ window, timedelta rules (duration.total rules) = .ok window

/-- Accepted are the spellings of positive durations, with the sum of their components. -/
structure MeetsGrammar (rules : FalsifierRules) (text : String) : Prop where
  accepts : (∃ window, windowOfText rules text = .ok (some window)) ↔
    ∃ duration, Documented rules duration ∧ Spells text duration ∧ Positive rules duration
  sums : ∀ window, windowOfText rules text = .ok (some window) →
    ∃ duration, Documented rules duration ∧ Spells text duration ∧
      timedelta rules (duration.total rules) = .ok window

/-- The pattern finds hours, minutes or seconds that no `T` comes before. -/
def LacksMarker (rules : FalsifierRules) (text : String) (duration : IsoDuration) : Prop :=
  isoDuration rules ((stripped text).tail.map upperCase) = some duration ∧
    duration.marked = false ∧ HasComponent duration.time

theorem all_isNone_iff : numbers.all Option.isNone ↔ ¬ HasComponent numbers := by
  simp only [all_eq_true, HasComponent, not_exists]
  constructor
  · intro hn number hm
    cases hn _ hm
  · intro hn number hm
    cases number with
    | none => rfl
    | some number => exact absurd hm (hn number)

theorem windowOf_eq_ok : windowOf rules total = .ok window ↔
      total.any (· ≤ 0) = false ∧ timedelta rules total = .ok window := by
  unfold windowOf
  split <;> simp_all

theorem isoWindow_eq_ok : isoWindow rules text = .ok window ↔ ∃ duration,
      isoDuration rules (text.map upperCase) = some duration ∧
        HasComponent (duration.date ++ duration.time) ∧
        (duration.marked → HasComponent duration.time) ∧
        Positive rules duration ∧ timedelta rules (duration.total rules) = .ok window := by
  unfold isoWindow
  cases isoDuration rules (text.map upperCase) with
  | none => simp
  | some duration =>
    simp only [Option.some.injEq, exists_eq_left']
    split
    · next hn =>
      rw [all_isNone_iff] at hn
      simp [hn]
    · next hc =>
      rw [all_isNone_iff, not_not] at hc
      split
      · next hd =>
        rw [all_isNone_iff] at hd
        simp [hd]
      · next hm =>
        rw [all_isNone_iff] at hm
        rw [windowOf_eq_ok, Positive]
        tauto

variable {text : String}

theorem documented_iff (hl : LettersOnly rules)
    (htx : stripped text = first :: rest) (hs0 : first = 'P' ∨ first = 'p') :
    Documented rules duration ∧ Spells text duration ↔
      isoDuration rules (rest.map upperCase) = some duration ∧
        HasComponent (duration.date ++ duration.time) ∧
        (duration.marked ↔ HasComponent duration.time) := by
  have hu : upperCase first = 'P' := by
    rcases hs0 with rfl | rfl <;> decide
  rw [Spells, htx, map_cons, hu, List.cons.injEq]
  constructor
  · rintro ⟨hsh, -, hs⟩
    exact ⟨hs ▸ isoDuration_text hl hsh, hsh.component, hsh.marker⟩
  · rintro ⟨hm, hc, hmr⟩
    obtain ⟨hd, ht, hs⟩ := isoDuration_sound hm
    exact ⟨⟨hd, ht, hc, hmr⟩, rfl, hs⟩

/-- No positive duration that fits a `timedelta` is read from a text that lacks the `T`, and
no documented one is too long. -/
def MarkedAndInRange (rules : FalsifierRules) (text : String) : Prop :=
  (∀ duration, LacksMarker rules text duration → Positive rules duration →
      ¬ InRange rules duration) ∧
    ∀ duration, Documented rules duration → Spells text duration → Positive rules duration →
      InRange rules duration

theorem iso_windows_iff (hletters : LettersOnly rules)
    (hstart : ∃ rest, stripped text = 'P' :: rest ∨ stripped text = 'p' :: rest) :
    MeetsGrammar rules text ↔ MarkedAndInRange rules text := by
  obtain ⟨first, rest, htext, hfirst⟩ : ∃ first rest, stripped text = first :: rest ∧
      (first = 'P' ∨ first = 'p') := by
    rcases hstart with ⟨rest, htext | htext⟩
    · exact ⟨_, rest, htext, .inl rfl⟩
    · exact ⟨_, rest, htext, .inr rfl⟩
  have hwindow : ∀ window, windowOfText rules text = .ok (some window) ↔
      isoWindow rules rest = .ok window := by
    intro window
    rw [windowOfText, htext]
    dsimp only
    rw [if_pos hfirst]
    cases isoWindow rules rest <;> simp [Except.map]
  have hdocumented : ∀ d, Documented rules d ∧ Spells text d ↔
      isoDuration rules (rest.map upperCase) = some d ∧ HasComponent (d.date ++ d.time) ∧
        (d.marked ↔ HasComponent d.time) := fun _ => documented_iff hletters htext hfirst
  have hlacks : ∀ d, LacksMarker rules text d ↔ isoDuration rules (rest.map upperCase) = some d ∧
      d.marked = false ∧ HasComponent d.time := by
    simp [LacksMarker, htext]
  constructor
  · intro hmeets
    refine ⟨fun d hlack hpositive ⟨window, hrange⟩ => ?_, fun d hshape hspells hpositive => ?_⟩
    · obtain ⟨hmatch, hunmarked, number, hnumber⟩ := (hlacks d).mp hlack
      have haccepted := (hwindow window).mpr (isoWindow_eq_ok.mpr ⟨d, hmatch,
        ⟨number, mem_append_right _ hnumber⟩, by simp [hunmarked], hpositive, hrange⟩)
      obtain ⟨other, hshape, hspells, -⟩ := hmeets.sums window haccepted
      obtain ⟨hother, -, hmarker⟩ := (hdocumented other).mp ⟨hshape, hspells⟩
      cases hmatch.symm.trans hother
      exact Bool.false_ne_true (hunmarked.symm.trans (hmarker.mpr ⟨number, hnumber⟩))
    · obtain ⟨window, haccepted⟩ := hmeets.accepts.mpr ⟨d, hshape, hspells, hpositive⟩
      obtain ⟨other, hmatch, -, -, -, hrange⟩ := isoWindow_eq_ok.mp ((hwindow window).mp haccepted)
      cases hmatch.symm.trans ((hdocumented d).mp ⟨hshape, hspells⟩).1
      exact ⟨window, hrange⟩
  · rintro ⟨hlack, hrange⟩
    have hread : ∀ window, windowOfText rules text = .ok (some window) → ∃ d,
        Documented rules d ∧ Spells text d ∧ Positive rules d ∧
          timedelta rules (d.total rules) = .ok window := by
      intro window haccepted
      obtain ⟨d, hmatch, hcomponent, hmarker, hpositive, hwithin⟩ :=
        isoWindow_eq_ok.mp ((hwindow window).mp haccepted)
      have hmarked : d.marked ↔ HasComponent d.time := by
        refine ⟨hmarker, fun htime => Bool.not_eq_false _ ▸ fun hunmarked => ?_⟩
        exact hlack d ((hlacks d).mpr ⟨hmatch, hunmarked, htime⟩) hpositive ⟨window, hwithin⟩
      obtain ⟨hshape, hspells⟩ := (hdocumented d).mpr ⟨hmatch, hcomponent, hmarked⟩
      exact ⟨d, hshape, hspells, hpositive, hwithin⟩
    refine ⟨⟨?_, ?_⟩, ?_⟩
    · rintro ⟨window, haccepted⟩
      obtain ⟨d, hshape, hspells, hpositive, -⟩ := hread window haccepted
      exact ⟨d, hshape, hspells, hpositive⟩
    · rintro ⟨d, hshape, hspells, hpositive⟩
      obtain ⟨window, hwithin⟩ := hrange d hshape hspells hpositive
      obtain ⟨hmatch, hcomponent, hmarker⟩ := (hdocumented d).mp ⟨hshape, hspells⟩
      exact ⟨window, (hwindow window).mpr (isoWindow_eq_ok.mpr
        ⟨d, hmatch, hcomponent, hmarker.mp, hpositive, hwithin⟩)⟩
    · intro window haccepted
      obtain ⟨d, hshape, hspells, -, hwithin⟩ := hread window haccepted
      exact ⟨d, hshape, hspells, hwithin⟩

theorem iso_windows_iff_week :
    MeetsGrammar asciiRules " p7d" ↔ MarkedAndInRange asciiRules " p7d" :=
  iso_windows_iff asciiRules_lettersOnly ⟨['7', 'd'], .inr (by decide)⟩

theorem hours_without_marker : ¬ MeetsGrammar asciiRules "P4H" := by
  intro hmeets
  obtain ⟨duration, hshape, hspells, -⟩ := hmeets.sums 14400 (by decide +kernel)
  obtain ⟨hmatch, -, hmarker⟩ := (documented_iff asciiRules_lettersOnly
    (show stripped "P4H" = 'P' :: ['4', 'H'] by decide) (.inl rfl)).mp ⟨hshape, hspells⟩
  have hread : isoDuration asciiRules ['4', 'H'] =
      some ⟨[none, none, none, none], false, [some ⟨['4'], []⟩, none, none]⟩ := by
    decide +kernel
  cases hread.symm.trans hmatch
  exact Bool.false_ne_true (hmarker.mpr ⟨_, .head _⟩)

/-- The number of seconds that a text states, in floating point. -/
inductive StatesSeconds (rules : FalsifierRules) (text : String) : Option Rat → Prop where
  | iso (rest : List Char) (duration : IsoDuration)
      (hstart : stripped text = 'P' :: rest ∨ stripped text = 'p' :: rest)
      (hmatch : isoDuration rules (rest.map upperCase) = some duration)
      (hcomponent : HasComponent (duration.date ++ duration.time))
      (hmarker : duration.marked → HasComponent duration.time) :
      StatesSeconds rules text (duration.total rules)
  | units (number : WindowNumber) (unit : List Char) (seconds : Rat)
      (hstart : (stripped text).head? ≠ some 'P' ∧ (stripped text).head? ≠ some 'p')
      (hmatch : (compactWindow rules (stripped text)).or (humanWindow rules (stripped text)) =
        some (number, unit))
      (hunit : unitSeconds unit = .ok seconds) :
      StatesSeconds rules text (timesUnit rules (some number) seconds)

/-- A unit with a letter that `re.IGNORECASE` takes for another one: `ſ`, `ı` or `İ`. -/
def UnknownUnit (rules : FalsifierRules) (text : String) : Prop :=
  ∃ number unit error, (stripped text).head? ≠ some 'P' ∧ (stripped text).head? ≠ some 'p' ∧
    (compactWindow rules (stripped text)).or (humanWindow rules (stripped text)) =
      some (number, unit) ∧ unitSeconds unit = .error error

/-- A positive window or a `MalformedFalsifierError`. -/
def PositiveOrMalformed : Except FalsifierError Rat → Prop
  | .ok window => 0 < window
  | .error error => ∃ message, error = .malformed message

/-- A blank text gives no window. -/
def KeepsContract (rules : FalsifierRules) (text : String) : Prop :=
  match windowOfText rules text with
  | .ok none => stripped text = []
  | .ok (some window) => PositiveOrMalformed (.ok window)
  | .error error => PositiveOrMalformed (.error error)

/-- Not positive, or at least a microsecond when rounded and less than a thousand million days. -/
def Representable (rules : FalsifierRules) (total : Option Rat) : Prop :=
  total.any (· ≤ 0) ∨ ∃ micros, total.bind (microseconds rules) = some micros ∧
    0 < micros ∧ micros < 1000000000 * 86400 * 1000000

theorem windowOf_keeps :
    PositiveOrMalformed (windowOf rules total) ↔ Representable rules total := by
  unfold windowOf Representable
  split
  · next hn => simp [PositiveOrMalformed, hn]
  · next hp =>
    unfold timedelta
    cases total.bind (microseconds rules) with
    | none => simp [PositiveOrMalformed, hp]
    | some micros =>
      have hm : 0 < (micros : Rat) / 1000000 ↔ 0 < micros := by
        rw [lt_div_iff₀ (by norm_num), zero_mul, Int.cast_pos]
      simp only [hp, Option.some.injEq, exists_eq_left', Bool.false_eq_true, false_or]
      split
      · next hl =>
        refine iff_of_false ?_ fun h => by omega
        simp [PositiveOrMalformed]
      · next hs =>
        refine hm.trans ?_
        omega

theorem isoWindow_keeps {text : List Char} :
    PositiveOrMalformed (isoWindow rules text) ↔ ∀ duration,
      isoDuration rules (text.map upperCase) = some duration →
        HasComponent (duration.date ++ duration.time) →
        (duration.marked → HasComponent duration.time) →
        Representable rules (duration.total rules) := by
  unfold isoWindow
  cases isoDuration rules (text.map upperCase) with
  | none => simp [PositiveOrMalformed]
  | some duration =>
    simp only [Option.some.injEq, forall_eq']
    split
    · next hn =>
      rw [all_isNone_iff] at hn
      simp [hn, PositiveOrMalformed]
    · next hc =>
      rw [all_isNone_iff, not_not] at hc
      split
      · next hd =>
        rw [all_isNone_iff] at hd
        simp [hd, PositiveOrMalformed]
      · next hm =>
        rw [all_isNone_iff] at hm
        rw [windowOf_keeps]
        exact ⟨fun h _ _ => h, fun h => h hc (by tauto)⟩

theorem keepsContract_map (hr : windowOfText rules text = result.map some) :
    KeepsContract rules text ↔ PositiveOrMalformed result := by
  rw [KeepsContract, hr]
  cases result <;> rfl

theorem unitSeconds_not_malformed : unitSeconds unit ≠ .error (.malformed message) := by
  unfold unitSeconds
  split <;> simp

example : windowOfText asciiRules "2 wee\u212as" = .ok (some 1209600) := by decide +kernel

end FyralisCore.Models
