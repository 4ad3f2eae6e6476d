import Mathlib.Data.List.DropRight
import FyralisCore.Lib.Dict

/-! The evidence that a model keeps. Beyond a limit only the first ids, the last
ones and an even sample of those between them stay. -/
namespace FyralisCore.Think

open Relational List

variable {α : Type}

structure CompactedSupport (α : Type) where
  eventIds : List α
  totalSeen : Nat
  retainedCount : Nat
  droppedCount : Nat
  compacted : Bool
  policy : String

/-- `THINK_SUPPORTING_EVENT_IDS_MAX`, `none` where it is not set to an integer. -/
def supportingEventIdsMax (value : Option Int) : Int :=
  match value with
  | none => 240
  | some value => max 1 value

/-- The values of a group are read as UUIDs, `none` for one that is not. -/
def flattenUuidGroups [DecidableEq α] (groups : List (List (Option α))) : List α :=
  (groups.flatten.filterMap id).eraseDups

/-- `round(a / b)`, a tie going to the even number. -/
def roundDiv (a b : Nat) : Nat :=
  if 2 * (a % b) < b ∨ 2 * (a % b) = b ∧ a / b % 2 = 0 then a / b else a / b + 1

def stratifiedSample (values : List α) (slots : Nat) : List α :=
  if slots = 0 ∨ values = [] then []
  else if values.length ≤ slots then values
  else if slots = 1 then values[values.length / 2]?.toList
  else
    ((List.range slots).map fun position =>
      roundDiv (position * (values.length - 1)) (slots - 1)).eraseDups.filterMap (values[·]?)

/-- The loop over the ids from the last one on. The limit is looked at once an id was taken. -/
def takeRecent [DecidableEq α] (anchors : List α) (limit : Nat) (recent : List α) : List α → List α
  | [] => recent
  | eventId :: rest =>
    if eventId ∈ anchors ∨ eventId ∈ recent then takeRecent anchors limit recent rest
    else if limit ≤ (recent ++ [eventId]).length then recent ++ [eventId]
    else takeRecent anchors limit (recent ++ [eventId]) rest

/-- `max(1, int(max_ids or supporting_event_ids_max()))` -/
def supportLimit (configured maxIds : Option Int) : Nat :=
  (max 1 (match maxIds with
    | none | some 0 => supportingEventIdsMax configured
    | some maxIds => maxIds)).toNat

def compactSupportingEventIds [DecidableEq α] (configured : Option Int)
    (groups : List (List (Option α))) (maxIds : Option Int)
    (preserveAnchors preserveRecent : Option Nat) : CompactedSupport α :=
  let limit := supportLimit configured maxIds
  let ordered := flattenUuidGroups groups
  if ordered.length ≤ limit then
    { eventIds := ordered, totalSeen := ordered.length, retainedCount := ordered.length
      droppedCount := 0, compacted := false, policy := "dedupe_only" }
  else
    let anchorLimit := min (max 1 (preserveAnchors.getD (limit / 6))) limit
    let recentLimit := min (max 1 (preserveRecent.getD (limit / 2))) (limit - anchorLimit)
    let anchors := ordered.take anchorLimit
    let recent := (takeRecent anchors recentLimit [] ordered.reverse).reverse
    let middlePool := ordered.filter fun eventId => eventId ∉ anchors ∧ eventId ∉ recent
    let middle := stratifiedSample middlePool (limit - anchors.length - recent.length)
    let retained := (anchors ++ middle ++ recent).eraseDups.take limit
    { eventIds := retained, totalSeen := ordered.length, retainedCount := retained.length
      droppedCount := ordered.length - retained.length, compacted := true
      policy := "anchors_stratified_middle_recent" }

/-- Rounding moves a quotient by at most one half. -/
theorem roundDiv_near (a : Nat) {b : Nat} (hb : 0 < b) :
    2 * (b * roundDiv a b) ≤ 2 * a + b ∧ 2 * a ≤ 2 * (b * roundDiv a b) + b := by
  have hd := Nat.div_add_mod a b
  have hm := Nat.mod_lt a hb
  unfold roundDiv
  split
  · omega
  · rw [Nat.mul_succ]
    omega

theorem roundDiv_lt {a b c : Nat} (hb : 0 < b) (hf : a + b < c) : roundDiv a b < roundDiv c b := by
  have ha := (roundDiv_near a hb).1
  have hc := (roundDiv_near c hb).2
  apply Nat.lt_of_mul_lt_mul_left (a := b)
  omega

theorem roundDiv_le {a b n : Nat} (hb : 0 < b) (ha : a ≤ b * n) : roundDiv a b ≤ n := by
  have hn := (roundDiv_near a hb).1
  have hl : b * roundDiv a b < b * (n + 1) := by
    rw [Nat.mul_succ]
    omega
  exact Nat.lt_succ_iff.mp (Nat.lt_of_mul_lt_mul_left hl)

theorem filterMap_getElem?_spec {values : List α} {picks : List Nat}
    (hu : picks.Pairwise (· < ·)) (hl : ∀ pick ∈ picks, pick < values.length) :
    (picks.filterMap (values[·]?)).Sublist values ∧
      (picks.filterMap (values[·]?)).length = picks.length := by
  have he : picks.filterMap (values[·]?) =
      (picks.pmap (fun pick h => (⟨pick, h⟩ : Fin values.length)) hl).map (values[·]) := by
    clear hu
    induction picks with
    | nil => rfl
    | cons pick picks ih =>
      have hp := hl pick (.head _)
      simp [hp, ih fun other hm => hl other (.tail _ hm)]
  rw [he]
  refine ⟨map_getElem_sublist (hu.pmap hl fun a ha b hb hab => hab), ?_⟩
  simp

theorem stratifiedSample_spec (values : List α) (slots : Nat) :
    (stratifiedSample values slots).Sublist values ∧
      (stratifiedSample values slots).length = min values.length slots := by
  unfold stratifiedSample
  split
  · next h => rcases h with h | h <;> simp [h]
  split
  · next h => simp [h]
  split
  · next hln h1 =>
    have hmd : values.length / 2 < values.length := by omega
    rw [List.getElem?_eq_getElem hmd]
    simp
    omega
  · next hn hln h1 =>
    let index (position : Nat) := roundDiv (position * (values.length - 1)) (slots - 1)
    have hu : ((List.range slots).map index).Pairwise (· < ·) := by
      rw [pairwise_map]
      refine pairwise_lt_range.imp fun {p q} hlt => ?_
      apply roundDiv_lt (by omega)
      calc p * (values.length - 1) + (slots - 1)
          < (p + 1) * (values.length - 1) := by rw [Nat.succ_mul]; omega
        _ ≤ q * (values.length - 1) := Nat.mul_le_mul_right _ hlt
    have hl : ∀ pick ∈ (List.range slots).map index, pick < values.length := by
      intro pick hm
      obtain ⟨position, hp, rfl⟩ := mem_map.mp hm
      rw [mem_range] at hp
      have hle : index position ≤ values.length - 1 :=
        roundDiv_le (by omega) (Nat.mul_le_mul_right _ (by omega))
      omega
    rw [eraseDups_of_nodup (hu.imp fun h => ne_of_lt h)]
    obtain ⟨hs, hc⟩ := filterMap_getElem?_spec hu hl
    refine ⟨hs, hc.trans ?_⟩
    simp
    omega

/-- A list that is long enough falls into its first, its middle and its last part. -/
theorem exists_parts (ids : List α) (hl : first + last ≤ ids.length) :
    ∃ anchors between recent, ids = anchors ++ between ++ recent ∧ anchors.length = first ∧
      recent.length = last := by
  refine ⟨ids.take first, (ids.drop first).take (ids.length - last - first),
    ids.drop (ids.length - last), ?_, by simp; omega, by simp; omega⟩
  have hd : ids.drop (ids.length - last) = (ids.drop first).drop (ids.length - last - first) := by
    rw [drop_drop]
    congr 1
    omega
  rw [append_assoc, hd, take_append_drop, take_append_drop]

/-- What is kept of `ids`: at most `limit` of them, the first ones and the last ones included. -/
structure Keeps (limit first last : Nat) (ids kept : List α) : Prop where
  sublist : kept.Sublist ids
  count : kept.length = min ids.length limit
  first : kept.take first = ids.take first
  last : kept.rtake last = ids.rtake last

theorem Keeps.mono {limit first last : Nat} {ids kept : List α}
    (hk : Keeps limit first last ids kept) (hm : m ≤ first) (hn : n ≤ last) :
    Keeps limit m n ids kept := by
  refine ⟨hk.sublist, hk.count, ?_, ?_⟩
  · simpa [take_take, hm] using congrArg (List.take m) hk.first
  · have hl := congrArg (fun l : List α => l.reverse.take n) hk.last
    simpa [rtake_eq_reverse_take_reverse, take_take, hn] using hl

/-- One merge of ids that are new to the history. -/
theorem Keeps.concat {limit first last : Nat} {history ids kept batch : List α}
    (h1 : first ≤ limit) (hk : Keeps limit first last history ids)
    (hn : Keeps limit first last (ids ++ batch) kept) :
    Keeps limit first last (history ++ batch) kept := by
  have hc := hk.count
  have hnw := hn.count
  refine ⟨hn.sublist.trans (hk.sublist.append (.refl _)), ?_, ?_, ?_⟩
  · simp only [length_append] at hnw ⊢
    omega
  · rw [hn.first, take_append, take_append, hk.first]
    congr 2
    omega
  · have hl' := congrArg List.reverse hk.last
    simp only [rtake_eq_reverse_take_reverse, reverse_reverse] at hl'
    rw [hn.last]
    simp only [rtake_eq_reverse_take_reverse, reverse_append, take_append]
    congr 2
    have hl := congrArg (List.take (last - batch.reverse.length)) hl'
    simpa [take_take] using hl

theorem supportLimit_pos (configured maxIds : Option Int) : 1 ≤ supportLimit configured maxIds := by
  unfold supportLimit
  omega

theorem rtake_append {first recent : List α} {last : Nat} (hr : recent.length = last) :
    (first ++ recent).rtake last = recent := by
  simp [List.rtake, ← hr]

variable [DecidableEq α] {anchors recent ids : List α} {limit : Nat}

theorem takeRecent_append (rest : List α) (hi : ids ≠ [])
    (hc : recent.length + ids.length = max limit (recent.length + 1))
    (hnd : (recent ++ ids).Nodup) (hf : ∀ eventId ∈ ids, eventId ∉ anchors) :
    takeRecent anchors limit recent (ids ++ rest) = recent ++ ids := by
  induction ids generalizing recent with
  | nil => cases hi rfl
  | cons eventId ids ih =>
    have hn : ¬ (eventId ∈ anchors ∨ eventId ∈ recent) := by
      rintro (hm | hm)
      · exact hf eventId (.head _) hm
      · exact (nodup_append.mp hnd).2.2 _ hm _ (.head _) rfl
    rw [cons_append, takeRecent, if_neg hn]
    cases ids with
    | nil => rw [if_pos (by simp at hc ⊢; omega)]
    | cons next ids =>
      rw [if_neg (by simp at hc ⊢; omega)]
      rw [ih (cons_ne_nil _ _) (by simp at hc ⊢; omega) (by simpa using hnd)
        fun other hm => hf other (.tail _ hm)]
      simp

theorem filter_between {between : List α} (hn : (anchors ++ between ++ recent).Nodup) :
    (anchors ++ between ++ recent).filter (fun eventId => eventId ∉ anchors ∧ eventId ∉ recent) =
      between := by
  obtain ⟨hl, -, hrg⟩ := nodup_append.mp hn
  obtain ⟨-, -, hd⟩ := nodup_append.mp hl
  simp only [filter_append]
  rw [filter_eq_nil_iff.mpr (by simp +contextual), filter_eq_self.mpr,
    filter_eq_nil_iff.mpr (by simp +contextual)]
  · simp
  · intro eventId hm
    have ha : eventId ∉ anchors := fun h => hd _ h _ hm rfl
    have hr : eventId ∉ recent := fun h => hrg _ (mem_append_right _ hm) _ h rfl
    simp [ha, hr]

theorem compact_keeps (configured : Option Int) (groups : List (List (Option α)))
    (maxIds : Option Int) (preserveAnchors preserveRecent : Option Nat) :
    let limit := supportLimit configured maxIds
    let first := min (max 1 (preserveAnchors.getD (limit / 6))) limit
    Keeps limit first (min (max 1 (preserveRecent.getD (limit / 2))) (limit - first))
      (flattenUuidGroups groups)
      (compactSupportingEventIds configured groups maxIds preserveAnchors preserveRecent).eventIds := by
  have hlm := supportLimit_pos configured maxIds
  have hn : (flattenUuidGroups groups).Nodup := nodup_eraseDups _
  unfold compactSupportingEventIds
  generalize supportLimit configured maxIds = limit at hlm ⊢
  generalize flattenUuidGroups groups = ordered at hn ⊢
  dsimp only
  split
  · next hln => exact ⟨.refl _, (min_eq_left hln).symm, rfl, rfl⟩
  · next hln =>
    have h1 : 1 ≤ min (max 1 (preserveAnchors.getD (limit / 6))) limit ∧
        min (max 1 (preserveAnchors.getD (limit / 6))) limit ≤ limit := by omega
    generalize min (max 1 (preserveAnchors.getD (limit / 6))) limit = first at h1 ⊢
    generalize hl : min (max 1 (preserveRecent.getD (limit / 2))) (limit - first) = last
    obtain ⟨anchors, between, recent, rfl, han, hr⟩ :=
      exists_parts ordered (show first + max last 1 ≤ _ by omega)
    have ht : (anchors ++ between ++ recent).take first = anchors := by
      rw [append_assoc, take_left' han]
    have hs : takeRecent anchors last [] (anchors ++ between ++ recent).reverse =
        recent.reverse := by
      have hrg := (nodup_append.mp hn).2
      rw [reverse_append]
      apply takeRecent_append
      · rw [← length_pos_iff, length_reverse, hr]
        omega
      · simp [hr]
      · simpa using hrg.1
      · intro eventId hm ha
        exact hrg.2 _ (mem_append_left _ ha) _ (mem_reverse.mp hm) rfl
    rw [ht, hs, reverse_reverse]
    simp only [filter_between hn]
    obtain ⟨hsb, hc⟩ := stratifiedSample_spec between (limit - anchors.length - recent.length)
    generalize stratifiedSample between (limit - anchors.length - recent.length) = m at *
    have hk : (anchors ++ m ++ recent).Sublist (anchors ++ between ++ recent) :=
      ((List.Sublist.refl _).append hsb).append (.refl _)
    rw [eraseDups_of_nodup (hn.sublist hk)]
    refine ⟨(take_sublist _ _).trans hk, ?_, ?_, ?_⟩
    · simp only [length_take, length_append]
      omega
    · rw [take_take, min_eq_left h1.2, ht, append_assoc, take_left' han]
    · rcases Nat.eq_zero_or_pos last with rfl | hp
      · simp [List.rtake]
      · have hr : recent.length = last := by omega
        rw [take_of_length_le (by simp only [length_append]; omega),
          rtake_append hr, rtake_append hr]


def compacted (configured : Option Int) (limit : Nat) (groups : List (List α)) : List α :=
  (compactSupportingEventIds configured (groups.map (·.map some)) (some limit) none none).eventIds

/-- The evidence of a model after `batches` were merged into it one after another. -/
def merged (configured : Option Int) (limit : Nat) (batches : List (List α)) : List α :=
  batches.foldl (fun kept batch => compacted configured limit [kept, batch]) []

variable (configured : Option Int)

theorem keeps_compacted (hl : 1 ≤ limit) (groups : List (List α)) :
    Keeps limit (limit / 6) (limit / 2) groups.flatten.eraseDups
      (compacted configured limit groups) := by
  have hs : supportLimit configured (some limit) = limit := by
    unfold supportLimit
    split
    · next h => cases h
    · next h =>
      have hz := Option.some.inj h
      omega
    · next h =>
      cases h
      omega
  have hi : flattenUuidGroups (groups.map (·.map some)) = groups.flatten.eraseDups := by
    rw [flattenUuidGroups, ← map_flatten, filterMap_map]
    exact congrArg _ filterMap_some
  have hk := compact_keeps configured (groups.map (·.map some)) (some limit) none none
  rw [hs, hi] at hk
  exact hk.mono (by simp; omega) (by simp; omega)

theorem keeps_merged (hl : 1 ≤ limit) (batches : List (List α)) (hf : batches.flatten.Nodup) :
    Keeps limit (limit / 6) (limit / 2) batches.flatten (merged configured limit batches) := by
  induction batches using List.reverseRecOn with
  | nil => exact ⟨.slnil, by simp [merged], rfl, rfl⟩
  | append_singleton batches batch ih =>
    simp only [flatten_append, flatten_singleton] at hf ⊢
    have hk := ih (nodup_append.mp hf).1
    have hn := keeps_compacted configured hl [merged configured limit batches, batch]
    rw [flatten_cons, flatten_singleton,
      eraseDups_of_nodup (hf.sublist (hk.sublist.append (.refl _)))] at hn
    have hm : merged configured limit (batches ++ [batch]) =
        compacted configured limit [merged configured limit batches, batch] := by
      simp [merged]
    rw [hm]
    exact hk.concat (by omega) hn

/-- Compaction keeps as many of the distinct ids as the limit lets it, in order, and changes
nothing when it is made again. However many batches of new ids are merged, the first sixth
and the last half of the limit are those of the whole history. -/
theorem compaction_keeps_ends (hlimit : 1 ≤ limit) :
    (∀ ids : List α, (compacted configured limit [ids]).Nodup ∧
      (compacted configured limit [ids]).Sublist ids ∧
      (compacted configured limit [ids]).length = min ids.eraseDups.length limit ∧
      compacted configured limit [compacted configured limit [ids]] =
        compacted configured limit [ids]) ∧ ∀ batches : List (List α), batches.flatten.Nodup →
      (merged configured limit batches).take (limit / 6) = batches.flatten.take (limit / 6) ∧
      (merged configured limit batches).rtake (limit / 2) = batches.flatten.rtake (limit / 2) := by
  constructor
  · intro ids
    have hk := keeps_compacted configured hlimit [ids]
    rw [flatten_singleton] at hk
    have hnd := (nodup_eraseDups ids).sublist hk.sublist
    refine ⟨hnd, hk.sublist.trans (eraseDups_sublist ids), hk.count, ?_⟩
    have hagain := keeps_compacted configured hlimit [compacted configured limit [ids]]
    rw [flatten_singleton, eraseDups_of_nodup hnd] at hagain
    have hcount := hk.count
    exact hagain.sublist.eq_of_length (by rw [hagain.count]; omega)
  · intro batches hf
    have hk := keeps_merged configured hlimit batches hf
    exact ⟨hk.first, hk.last⟩

theorem compaction_keeps_ends_ten :
    (merged none 10 [List.range 20, [20, 21]]).rtake 5 = [17, 18, 19, 20, 21] := by
  have hf : [List.range 20, [20, 21]].flatten.Nodup := by decide
  exact ((compaction_keeps_ends none (show 1 ≤ 10 by decide)).2 _ hf).2

end FyralisCore.Think
