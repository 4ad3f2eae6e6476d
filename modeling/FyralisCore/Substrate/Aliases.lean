import Mathlib.Data.List.DropRight
import FyralisCore.Lib.Dict
import FyralisCore.Models.Falsifier

/-! The aliases of entities (`entity_aliases/repo.py`): the phrases that `insert_alias` stores,
and the entity that a phrase names. -/
namespace FyralisCore.Substrate.Aliases

open List Relational
open Acts (isBlank isSpaceChar stripped)

variable {Ref Value : Type}

/-- The strings of Python and of the database. A reference is what is stored: `jsonb` is its
value as DISTINCT compares it, `dumps` the text of `json.dumps` with its keys sorted: one text is
of one value. -/
structure AliasRules (Ref Value : Type) where
  casefold : String → String
  lower : String → String
  isSpace : Char → Bool
  jsonb : Ref → Value
  dumps : Ref → String
  isObject : Ref → Bool
  casefold_blank : ∀ text, isBlank (casefold text) = isBlank text
  dumps_jsonb : ∀ ref other, dumps ref = dumps other → jsonb ref = jsonb other

structure AliasRow (Ref : Type) where
  tenantId : Nat
  aliasText : String
  actorId : Option Nat
  resolvedEntityRef : Ref
  deriving DecidableEq

structure AliasInsert (Ref : Type) where
  phrase : String
  resolvedEntityRef : Ref
  source : String
  confidence : Rat
  tenantId : Nat
  actorId : Option Nat := none

def AliasInsert.row (args : AliasInsert Ref) : AliasRow Ref :=
  ⟨args.tenantId, args.phrase, args.actorId, args.resolvedEntityRef⟩

/-- A `ValidationError`, by its field. -/
inductive AliasError where
  | phrase
  | source (value : String)
  | confidence (value : Rat)
  | resolvedEntityRef
  deriving DecidableEq

variable (rules : AliasRules Ref Value)

/-- `re.sub(r"\s+", " ", text)` -/
def collapse (isSpace : Char → Bool) : List Char → List Char
  | [] => []
  | char :: rest =>
    if isSpace char then
      if rest.head?.any isSpace then collapse isSpace rest else ' ' :: collapse isSpace rest
    else char :: collapse isSpace rest

def normalizePhrase (phrase : String) : List Char :=
  stripped (String.ofList (collapse isSpaceChar (rules.casefold phrase).toList))

/-- `regexp_replace(lower(alias_text), '\s+', ' ', 'g')` -/
def normalized (aliasText : String) : List Char :=
  collapse rules.isSpace (rules.lower aliasText).toList

def legalSources : List String := ["ingestion", "resolver_worker", "manual"]

def insertAlias (args : AliasInsert Ref) (rows : List (AliasRow Ref)) :
    Except AliasError (List (AliasRow Ref)) :=
  if isBlank args.phrase then .error .phrase
  else if args.source ∉ legalSources then .error (.source args.source)
  else if ¬ (0 ≤ args.confidence ∧ args.confidence ≤ 1) then .error (.confidence args.confidence)
  else if ¬ rules.isObject args.resolvedEntityRef then .error .resolvedEntityRef
  else if rows.any fun row => row.tenantId == args.tenantId && row.aliasText == args.phrase &&
      row.actorId == args.actorId then .ok rows
  else .ok (rows ++ [args.row])

/-- A row that a call has written. Other rows of a table may come from anywhere. -/
def Stored (row : AliasRow Ref) : Prop :=
  ∃ args rows, insertAlias rules args rows = .ok (rows ++ [row])

/-- The references of the rows that the lookup finds under a normal form. -/
def found (rows : List (AliasRow Ref)) (tenantId : Nat) (norm : List Char) : List Ref :=
  (rows.filter fun row =>
    row.tenantId == tenantId && normalized rules row.aliasText == norm).map (·.resolvedEntityRef)

/-- SELECT DISTINCT -/
def distinct [DecidableEq Value] (refs : List Ref) : List Ref :=
  (firstByKey (refs.map fun ref => (rules.jsonb ref, ref))).map (·.2)

/-- The dict of the references by their texts, where it has one entry. -/
def onlyRef (refs : List Ref) : Option Ref :=
  match firstByKey (refs.map fun ref => (rules.dumps ref, ref)) with
  | [(_, ref)] => some ref
  | _ => none

def fastPathResolve [DecidableEq Value] (rows : List (AliasRow Ref)) (phrase : String)
    (tenantId : Nat) : Option Ref :=
  if isBlank phrase ∨ normalizePhrase rules phrase = [] then none
  else onlyRef rules
    ((distinct rules (found rules rows tenantId (normalizePhrase rules phrase))).take 2)

/-- The dict that is returned: an entry for each normal form whose rows have one reference. -/
def fastPathResolveMany (rows : List (AliasRow Ref)) (phrases : List String) (tenantId : Nat) :
    List (List Char × Ref) :=
  let norms := ((phrases.filter (!isBlank ·)).map (normalizePhrase rules)).filter (· ≠ [])
  norms.eraseDups.filterMap fun norm =>
    (onlyRef rules (found rules rows tenantId norm)).map (norm, ·)

/-- The alias names the same entity in all that is stored under its normal form. -/
def OneEntity (rows : List (AliasRow Ref)) (row : AliasRow Ref) : Prop :=
  ∀ other ∈ rows, other.tenantId = row.tenantId →
    normalizePhrase rules other.aliasText = normalizePhrase rules row.aliasText →
    rules.jsonb other.resolvedEntityRef = rules.jsonb row.resolvedEntityRef

/-- What the lookups of a query answer, for an alias of its normal form. -/
structure Agrees [DecidableEq Value] (rows : List (AliasRow Ref)) (row : AliasRow Ref)
    (query : String) (phrases : List String) : Prop where
  batch : (fastPathResolveMany rules rows phrases row.tenantId).lookup
    (normalizePhrase rules query) = fastPathResolve rules rows query row.tenantId
  names : OneEntity rules rows row → (fastPathResolve rules rows query row.tenantId).map
    rules.jsonb = some (rules.jsonb row.resolvedEntityRef)
  ambiguous : ¬ OneEntity rules rows row → fastPathResolve rules rows query row.tenantId = none

/-- The answers to every query of the normal form of an alias. -/
def AnswersAgree [DecidableEq Value] (rows : List (AliasRow Ref)) (row : AliasRow Ref) : Prop :=
  ∀ query, normalizePhrase rules query = normalizePhrase rules row.aliasText →
    ∀ phrases, query ∈ phrases → Agrees rules rows row query phrases

/-- A row of the tenant whose expression in the database is the normal form of the alias. -/
def Visible (rows : List (AliasRow Ref)) (row other : AliasRow Ref) : Prop :=
  other ∈ rows ∧ other.tenantId = row.tenantId ∧
    normalized rules other.aliasText = normalizePhrase rules row.aliasText

/-- There are visible rows, and these have one entity, as `key` tells entities apart. -/
def OneVisible {K : Type} (key : Ref → K) (rows : List (AliasRow Ref)) (row : AliasRow Ref) :
    Prop :=
  (∃ other, Visible rules rows row other) ∧
    ∀ other another, Visible rules rows row other → Visible rules rows row another →
      key another.resolvedEntityRef = key other.resolvedEntityRef

/-- The visible rows have one entity, and that of the alias, just when all aliases of its normal
form do; and where they have one entity, they have one text. -/
structure Told (rows : List (AliasRow Ref)) (row : AliasRow Ref) : Prop where
  names : OneEntity rules rows row → OneVisible rules rules.jsonb rows row ∧
    ∀ other, Visible rules rows row other →
      rules.jsonb other.resolvedEntityRef = rules.jsonb row.resolvedEntityRef
  ambiguous : ¬ OneEntity rules rows row → ¬ OneVisible rules rules.jsonb rows row
  batch : OneVisible rules rules.jsonb rows row → OneVisible rules rules.dumps rows row

variable {rules} {refs : List Ref} {ref : Ref} {rows : List (AliasRow Ref)} {row : AliasRow Ref}
  {query : String} {phrases : List String} {norm : List Char} {tenantId : Nat}

theorem collapse_all (text : List Char) :
    (collapse isSpaceChar text).all isSpaceChar = text.all isSpaceChar := by
  induction text with
  | nil => rfl
  | cons char rest ih =>
    rw [collapse]
    split
    · next hs =>
      split <;> simp [ih, hs, show isSpaceChar ' ' from rfl]
    · next hs => simp [hs]

theorem stripped_eq_nil_iff (text : List Char) :
    stripped (String.ofList text) = [] ↔ text.all isSpaceChar := by
  simp only [stripped, String.toList_ofList, reverse_eq_nil_iff, dropWhile_eq_nil_iff, mem_reverse,
    all_eq_true]
  refine ⟨fun ha char hm => ?_, fun ha char hm => ha char ((dropWhile_sublist _).subset hm)⟩
  rw [← takeWhile_append_dropWhile (p := isSpaceChar) (l := text)] at hm
  exact (mem_append.mp hm).elim mem_takeWhile_imp (ha char)

theorem normalizePhrase_eq_nil_iff (rules : AliasRules Ref Value) (phrase : String) :
    normalizePhrase rules phrase = [] ↔ isBlank phrase := by
  rw [normalizePhrase, stripped_eq_nil_iff, collapse_all, ← rules.casefold_blank, isBlank]

theorem Stored.not_blank (hs : Stored rules row) : isBlank row.aliasText = false := by
  obtain ⟨args, rows, hi⟩ := hs
  unfold insertAlias at hi
  split_ifs at hi with hb
  · simp at hi
  · obtain rfl : args.row = row := by simpa using hi
    simpa [AliasInsert.row] using hb

theorem mem_of_mem_firstByKey {K V : Type} [DecidableEq K] {pairs : List (K × V)} {pair : K × V}
    (hm : pair ∈ firstByKey pairs) : pair ∈ pairs := by
  have hlk := lookup_of_mem (nodup_keys_firstByKey _) hm
  rw [lookup_firstByKey] at hlk
  exact mem_of_lookup hlk

theorem firstByKey_eq_nil_iff {K V : Type} [DecidableEq K] {pairs : List (K × V)} :
    firstByKey pairs = [] ↔ pairs = [] := by
  cases pairs with
  | nil => exact iff_of_true rfl rfl
  | cons pair rest => simp [firstByKey_cons, reduceCtorEq]

/-- The references have one value under the key. -/
def One {K : Type} (key : Ref → K) (refs : List Ref) : Prop :=
  refs ≠ [] ∧ ∀ ref ∈ refs, ∀ other ∈ refs, key other = key ref

theorem one_cons {K : Type} [DecidableEq K] {key : Ref → K} {rest : List Ref} :
    One key (ref :: rest) ↔ firstByKey ((rest.map fun other => (key other, other)).filter
      fun other => !(other.1 == key ref)) = [] := by
  rw [firstByKey_eq_nil_iff]
  simp only [One, ne_eq, reduceCtorEq, not_false_iff, true_and, filter_eq_nil_iff, mem_map,
    forall_exists_index, and_imp, forall_apply_eq_imp_iff₂, Bool.not_eq_true', beq_eq_false_iff_ne,
    not_not]
  constructor
  · intro ho other hm
    exact ho ref (.head _) other (.tail _ hm)
  · intro ha
    have hr : ∀ other ∈ ref :: rest, key other = key ref := forall_mem_cons.mpr ⟨rfl, ha⟩
    exact fun a hm b hn => (hr b hn).trans (hr a hm).symm

/-- A dict of one text holds the first reference. -/
theorem onlyRef_eq (rules : AliasRules Ref Value) (refs : List Ref) [Decidable (One rules.dumps refs)] :
    onlyRef rules refs = if One rules.dumps refs then refs.head? else none := by
  cases refs with
  | nil => simp [onlyRef, One, firstByKey]
  | cons ref rest =>
    simp only [one_cons, onlyRef, map_cons, firstByKey_cons]
    cases firstByKey ((rest.map fun other => (rules.dumps other, other)).filter
        fun other => !(other.1 == rules.dumps ref)) with
    | nil => rfl
    | cons pair pairs => simp

theorem One.of_dumps (ho : One rules.dumps refs) : One rules.jsonb refs :=
  ⟨ho.1, fun ref hr other hm => rules.dumps_jsonb _ _ (ho.2 ref hr other hm)⟩

theorem mem_found : ref ∈ found rules rows row.tenantId (normalizePhrase rules row.aliasText) ↔
    ∃ other, Visible rules rows row other ∧ other.resolvedEntityRef = ref := by
  simp [found, Visible, and_assoc]

theorem one_found {K : Type} (key : Ref → K) : One key (found rules rows row.tenantId
    (normalizePhrase rules row.aliasText)) ↔ OneVisible rules key rows row := by
  constructor
  · rintro ⟨hne, ho⟩
    obtain ⟨ref, hm⟩ := exists_mem_of_ne_nil _ hne
    obtain ⟨other, hv, -⟩ := mem_found.mp hm
    exact ⟨⟨other, hv⟩, fun _ _ hv hw =>
      ho _ (mem_found.mpr ⟨_, hv, rfl⟩) _ (mem_found.mpr ⟨_, hw, rfl⟩)⟩
  · rintro ⟨⟨other, hv⟩, ho⟩
    refine ⟨ne_nil_of_mem (mem_found.mpr ⟨other, hv, rfl⟩), fun ref hr ref' hr' => ?_⟩
    obtain ⟨_, hv, rfl⟩ := mem_found.mp hr
    obtain ⟨_, hw, rfl⟩ := mem_found.mp hr'
    exact ho _ _ hv hw

/-- Where the visible rows have one entity, the first of them has it. -/
theorem OneVisible.head {K : Type} {key : Ref → K} (ho : OneVisible rules key rows row) :
    ∃ other, Visible rules rows row other ∧
      (found rules rows row.tenantId (normalizePhrase rules row.aliasText)).head? =
        some other.resolvedEntityRef := by
  obtain ⟨other, hv⟩ := ho.1
  have hm := mem_found.mpr ⟨other, hv, rfl⟩
  obtain ⟨ref, rest, heq⟩ := exists_cons_of_ne_nil (ne_nil_of_mem hm)
  obtain ⟨first, hf, rfl⟩ := mem_found.mp (heq ▸ mem_cons_self : ref ∈ _)
  exact ⟨first, hf, by rw [heq, head?_cons]⟩

theorem lookup_filterMap_keys {K V : Type} [BEq K] [LawfulBEq K] {f : K → Option V} {keys : List K}
    {key : K} (hk : key ∉ keys → f key = none) :
    (keys.filterMap fun key => (f key).map (key, ·)).lookup key = f key := by
  induction keys with
  | nil => exact (hk not_mem_nil).symm
  | cons first rest ih =>
    cases heq : key == first with
    | true =>
      obtain rfl := eq_of_beq heq
      cases hf : f key with
      | none => simpa [hf] using ih fun _ => hf
      | some value => simp [hf]
    | false =>
      have ih := ih fun hn => hk (by simp [ne_of_beq_false heq, hn])
      cases hf : f first <;> simpa [hf, lookup_cons, heq] using ih

theorem not_blank_of_normal (hb : isBlank row.aliasText = false)
    (hq : normalizePhrase rules query = normalizePhrase rules row.aliasText) :
    isBlank query = false := by
  rwa [← Bool.not_eq_true, ← normalizePhrase_eq_nil_iff rules, hq, normalizePhrase_eq_nil_iff,
    Bool.not_eq_true]

theorem lookup_fastPathResolveMany [Decidable (OneVisible rules rules.dumps rows row)]
    (hb : isBlank row.aliasText = false)
    (hq : normalizePhrase rules query = normalizePhrase rules row.aliasText)
    (hm : query ∈ phrases) :
    (fastPathResolveMany rules rows phrases row.tenantId).lookup (normalizePhrase rules query) =
      if OneVisible rules rules.dumps rows row then
        (found rules rows row.tenantId (normalizePhrase rules row.aliasText)).head?
      else none := by
  classical
  have hn : normalizePhrase rules query ≠ [] := by
    simp [normalizePhrase_eq_nil_iff, not_blank_of_normal hb hq]
  refine (lookup_filterMap_keys (f := fun norm => onlyRef rules (found rules rows _ norm))
    fun hk => absurd ?_ hk).trans ?_
  · simp only [mem_eraseDups, mem_filter, mem_map, decide_eq_true_eq]
    exact ⟨⟨query, ⟨hm, by simp [not_blank_of_normal hb hq]⟩, rfl⟩, hn⟩
  · simp only [hq, onlyRef_eq, one_found]

variable [DecidableEq Value]

theorem take_distinct_eq (rules : AliasRules Ref Value) (refs : List Ref)
    [Decidable (One rules.jsonb refs)] :
    onlyRef rules ((distinct rules refs).take 2) =
      if One rules.jsonb refs then refs.head? else none := by
  cases refs with
  | nil => simp [distinct, onlyRef, One, firstByKey]
  | cons ref rest =>
    simp only [one_cons, distinct, map_cons, firstByKey_cons]
    cases heq : firstByKey ((rest.map fun other => (rules.jsonb other, other)).filter
        fun other => !(other.1 == rules.jsonb ref)) with
    | nil => rfl
    | cons pair pairs =>
      have hm : pair ∈ (rest.map fun other => (rules.jsonb other, other)).filter
          fun other => !(other.1 == rules.jsonb ref) :=
        mem_of_mem_firstByKey (heq ▸ mem_cons_self)
      obtain ⟨hm, hne⟩ := mem_filter.mp hm
      obtain ⟨other, -, rfl⟩ := mem_map.mp hm
      have hn : ¬ One rules.dumps [ref, other] := fun ho => by
        simp [rules.dumps_jsonb _ _ (ho.2 ref (.head _) other (.tail _ (.head _)))] at hne
      classical simpa [hn] using onlyRef_eq rules [ref, other]

theorem fastPathResolve_eq [Decidable (OneVisible rules rules.jsonb rows row)]
    (hb : isBlank row.aliasText = false)
    (hq : normalizePhrase rules query = normalizePhrase rules row.aliasText) :
    fastPathResolve rules rows query row.tenantId =
      if OneVisible rules rules.jsonb rows row then
        (found rules rows row.tenantId (normalizePhrase rules row.aliasText)).head?
      else none := by
  classical
  have hn := not_blank_of_normal hb hq
  rw [fastPathResolve, if_neg (by simp [hn, normalizePhrase_eq_nil_iff]), hq, take_distinct_eq]
  simp only [one_found]

theorem answersAgree_iff (hb : isBlank row.aliasText = false) :
    AnswersAgree rules rows row ↔ Told rules rows row := by
  classical
  constructor
  · intro ha
    obtain ⟨batch, names, ambiguous⟩ := ha _ rfl [row.aliasText] (.head _)
    rw [lookup_fastPathResolveMany hb rfl (.head _), fastPathResolve_eq hb rfl] at batch
    rw [fastPathResolve_eq hb rfl] at names ambiguous
    refine ⟨fun he => ?_, fun hn ho => ?_, fun ho => ?_⟩
    · have hk := names he
      by_cases ho : OneVisible rules rules.jsonb rows row
      case neg => simp [ho] at hk
      obtain ⟨first, hf, hh⟩ := ho.head
      rw [if_pos ho] at hk
      simp only [hh, Option.map_some, Option.some.injEq] at hk
      exact ⟨ho, fun other hv => (ho.2 first other hf hv).trans hk⟩
    · obtain ⟨first, -, hh⟩ := ho.head
      simpa [ho, hh] using ambiguous hn
    · by_contra hn
      obtain ⟨first, -, hh⟩ := ho.head
      simp [ho, hn, hh] at batch
  · intro ht query hq phrases hm
    have hfast : fastPathResolve rules rows query row.tenantId = _ := fastPathResolve_eq hb hq
    refine ⟨?_, fun he => ?_, fun hn => ?_⟩
    · have hd : OneVisible rules rules.dumps rows row ↔ OneVisible rules rules.jsonb rows row :=
        ⟨fun hd => (one_found _).mp ((one_found _).mpr hd).of_dumps, ht.batch⟩
      rw [lookup_fastPathResolveMany hb hq hm, hfast]
      simp only [hd]
    · obtain ⟨ho, hv⟩ := ht.names he
      obtain ⟨first, hf, hh⟩ := ho.head
      rw [hfast, if_pos ho, hh, Option.map_some, hv first hf]
    · rw [hfast, if_neg (ht.ambiguous hn)]

/-- The lookups agree with the insertions exactly when, for each alias that was stored, the rows
that are visible under its normal form tell it. -/
theorem lookups_agree_iff (rules : AliasRules Ref Value) (rows : List (AliasRow Ref)) :
    (∀ row ∈ rows, Stored rules row → AnswersAgree rules rows row) ↔
      ∀ row ∈ rows, Stored rules row → Told rules rows row :=
  forall₂_congr fun _ _ => forall_congr' fun hs => answersAgree_iff hs.not_blank

/-- For phrases in lower case, and entities by their names. -/
def plainRules : AliasRules String String where
  casefold := id
  lower := id
  isSpace := isSpaceChar
  jsonb := id
  dumps := id
  isObject _ := true
  casefold_blank _ := rfl
  dumps_jsonb _ _ heq := heq

def acmeInsert (phrase : String) : AliasInsert String := ⟨phrase, "Acme", "manual", 1, 1, none⟩

/-- The stored phrase keeps its leading blank in the comparison of the database, and is not found,
as it is without the blank. -/
theorem untrimmed_alias_lost : (∃ rows, insertAlias plainRules (acmeInsert "acme") [] = .ok rows ∧
      fastPathResolve plainRules rows "acme" 1 = some "Acme") ∧
    ∃ rows, insertAlias plainRules (acmeInsert " acme") [] = .ok rows ∧
      ¬ ∀ row ∈ rows, Stored plainRules row → AnswersAgree plainRules rows row := by
  have hi : insertAlias plainRules (acmeInsert " acme") [] = .ok [(acmeInsert " acme").row] := by
    decide +kernel
  have hlost : fastPathResolve plainRules [(acmeInsert " acme").row] "acme" 1 = none := by
    decide +kernel
  refine ⟨⟨[(acmeInsert "acme").row], by decide +kernel, by decide +kernel⟩, _, hi, fun ha => ?_⟩
  have hn := (ha _ (.head _) ⟨_, _, hi⟩ "acme" (by decide +kernel) ["acme"] (.head _)).names
  have ho : OneEntity plainRules [(acmeInsert " acme").row] (acmeInsert " acme").row :=
    fun other hm _ _ => by rw [mem_singleton.mp hm]
  have hf := hn ho
  rw [show (acmeInsert " acme").row.tenantId = 1 from rfl, hlost] at hf
  cases hf

end FyralisCore.Substrate.Aliases
