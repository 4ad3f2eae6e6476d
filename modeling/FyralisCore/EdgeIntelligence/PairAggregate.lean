import FyralisCore.EdgeIntelligence.PairEvidence
import FyralisCore.Lib.CommitLog
import Mathlib.Tactic.Linarith

/-! Pair evidence is an exact aggregate. A session holds the row from its
insert or its locking re-read on, so what it adds is added to everything that
was committed before, and each observation ends with a confidence that is
either fresh or has not moved. -/
namespace FyralisCore.EdgeIntelligence

open Relational Transaction ReadCommitted Transition Discipline

def Tallies (votes : Votes) (count : String → Nat) : Prop :=
  ∀ vote, votes.get vote = if count vote = 0 then none else some (count vote : Int)

def voted (value : Option String) (vote : String) : Nat :=
  if value = some vote then 1 else 0

theorem get_voteDict (v : Option String) (hn : v ≠ some "") (vote : String) :
    (voteDict v).get vote = if v = some vote then some 1 else none := by
  cases v with
  | none => simp [voteDict]
  | some cast =>
    have hc : cast ≠ "" := fun h => hn (congrArg some h)
    simp [voteDict, hc, ↓reduceIte, Table.get_put, Table.get_empty, Option.some.injEq, eq_comm]

theorem tallies_voteDict (hn : v ≠ some "") : Tallies (voteDict v) (voted v) := by
  intro vote
  rw [get_voteDict v hn, voted]
  split <;> simp

theorem rows_voteDict (v : Option String) (hn : v ≠ some "") :
    (voteDict v).rows = (v.map fun cast => (cast, 1)).toList := by
  cases v with
  | none => rfl
  | some cast =>
    have hc : cast ≠ "" := fun h => hn (congrArg some h)
    simp only [voteDict, hc, ↓reduceIte]
    rfl

theorem Tallies.merge (ht : Tallies votes count) (hn : v ≠ some "") :
    Tallies (mergeVotes votes (voteDict v)) fun vote => count vote + voted v vote := by
  intro vote
  rw [mergeVotes, rows_voteDict v hn, Table.get_deleteWhere]
  cases v with
  | none =>
    simp only [Option.map_none, Option.toList_none, List.foldl_nil, ht vote, voted]
    by_cases hz : count vote = 0
    · simp [hz]
    · have hp : 0 < count vote := Nat.pos_of_ne_zero hz
      simp [hz]
  | some cast =>
    simp only [Option.map_some, Option.toList_some, List.foldl_cons, List.foldl_nil,
      Table.get_put, ht vote, ht cast, voted, Option.some.injEq]
    by_cases hs : vote = cast
    · subst hs
      by_cases hz : count vote = 0
      · simp [hz]
      · simp [hz]
    · have ho : cast ≠ vote := fun h => hs h.symm
      by_cases hz : count vote = 0
      · simp [hs, ho, hz]
      · simp [hs, ho, hz]

theorem directionVote_ne_empty (observation : PairEvidenceObservation) (modelAId modelBId : Nat) :
    directionVote observation modelAId modelBId ≠ some "" := by
  unfold directionVote
  split
  · split
    · decide
    · split <;> decide
  · intro h
    cases h

theorem cleanOptionalText_ne_empty (v : Option String) : cleanOptionalText v ≠ some "" := by
  intro he
  have hk := (Option.filter_eq_some_iff.mp he).2
  simp at hk

/-! ### The rows that a session leaves alone, and those it holds -/

section

variable {upper : String → String} {s t : PairTable} {ws : List PairWrite} {key : PairKey}

theorem get_applyWrite (db : PairTable) (w : PairWrite) (key : PairKey) :
    (applyWrite db w).get key =
      if w.key = key then w.onRow (db.get key) else db.get key := by
  cases w with
  | insert other row =>
    simp only [applyWrite, Table.get_insertNew, PairWrite.key, PairWrite.onRow]
    by_cases hs : other = key
    · subst hs
      cases db.get other <;> simp
    · have ho : key ≠ other := fun h => hs h.symm
      simp [hs, ho]
  | add other delta directionVotes edgeKindVotes metadata =>
    simp [applyWrite, Table.get_update, PairWrite.key, PairWrite.onRow, eq_comm]
  | setConfidence other confidence =>
    simp [applyWrite, Table.get_update, PairWrite.key, PairWrite.onRow, eq_comm]

theorem get_view_of_untouched (hu : ∀ w ∈ ws, w.key ≠ key) :
    ((pairSchema upper).view s ws).get key = s.get key := by
  induction ws generalizing s with
  | nil => rfl
  | cons w rest ih =>
    obtain ⟨hw, ht⟩ := List.forall_mem_cons.mp hu
    rw [Schema.view, List.foldl_cons, ← Schema.view, ih ht]
    simp [pairSchema, get_applyWrite, hw, ↓reduceIte]

theorem get_view_congr (hs : s.get key = t.get key) :
    ((pairSchema upper).view s ws).get key = ((pairSchema upper).view t ws).get key := by
  induction ws generalizing s t with
  | nil => exact hs
  | cons w rest ih =>
    apply ih
    simp [pairSchema, get_applyWrite, hs]

theorem get_view_append_one (hk : w.key = key) : ((pairSchema upper).view s (ws ++ [w])).get key =
      w.onRow (((pairSchema upper).view s ws).get key) := by
  rw [Schema.view_append]
  exact (get_applyWrite _ w key).trans (if_pos hk)

end

/-- Sessions write the rows they hold, and rely on nobody else doing so. -/
def rowDiscipline (upper : String → String) : Discipline (pairSchema upper) where
  Good _ := True
  Rely trail s t := ∀ key ∈ trail.locks, t.get key = s.get key
  Final _ trail := ∀ write ∈ trail.writes, write.key ∈ trail.locks
  Unused _ _ := True
  rely_refl _ _ _ _ := rfl
  rely_trans hfirst hsecond key hkey := (hsecond key hkey).trans (hfirst key hkey)
  final_stable _ hfinal _ _ := hfinal
  good_commit _ _ := trivial
  rely_commit := by
    intro s mine theirs _ hfinal hdisjoint key hkey
    apply get_view_of_untouched
    intro write hwrite hsame
    exact hdisjoint.1 key hkey (hsame ▸ hfinal write hwrite)
  unused_commit _ _ _ _ := trivial

/-! ### What the observations of a pair add up to -/

def keyOf (upper : String → String) (observation : PairEvidenceObservation) : PairKey where
  tenantId := observation.tenantId
  modelAId := min observation.leftModelId observation.rightModelId
  modelBId := max observation.leftModelId observation.rightModelId
  primitive := normalizePrimitive upper observation.primitive

theorem canonicalModelPair_ok
    (ho : canonicalModelPair left right = .ok pair) : pair = (min left right, max left right) := by
  unfold canonicalModelPair at ho
  split at ho
  · cases ho
  · simp only [Except.ok.injEq] at ho
    subst ho
    split
    · rw [min_eq_left (by omega), max_eq_right (by omega)]
    · rw [min_eq_right (by omega), max_eq_left (by omega)]

structure Sums (modelAId modelBId : Nat) (observations : List PairEvidenceObservation)
    (row : PairRow) : Prop where
  counts : ∀ signal, row.counts signal =
    (observations.map fun observation => observation.delta signal).sum
  directionVotes : Tallies row.directionVotes fun vote =>
    observations.countP fun observation => directionVote observation modelAId modelBId = some vote
  edgeKindVotes : Tallies row.edgeKindVotes fun vote =>
    observations.countP fun observation => cleanOptionalText observation.edgeKindHint = some vote

def Scored (row : PairRow) : Prop :=
  |confidenceFromPairEvidence row.counts - row.confidenceScore| < 1 / 1000000

section

variable (upper : String → String) (observation : PairEvidenceObservation)

def insertedRow (id : Nat) : PairRow where
  id := id
  counts := observation.delta
  directionVotes := voteDict (directionVote observation (keyOf upper observation).modelAId
    (keyOf upper observation).modelBId)
  edgeKindVotes := voteDict (cleanOptionalText observation.edgeKindHint)
  metadata := observation.metadata

def addedRow (row : PairRow) : PairRow :=
  { row with
    counts := row.counts + observation.delta
    directionVotes := mergeVotes row.directionVotes
      (voteDict (directionVote observation (keyOf upper observation).modelAId
        (keyOf upper observation).modelBId))
    edgeKindVotes :=
      mergeVotes row.edgeKindVotes (voteDict (cleanOptionalText observation.edgeKindHint))
    metadata := Dict.update row.metadata observation.metadata }

end

section

variable {modelAId modelBId : Nat} {observations : List PairEvidenceObservation}
  {observation : PairEvidenceObservation} {row : PairRow}

theorem sums_inserted (id : Nat) :
    Sums (keyOf upper observation).modelAId (keyOf upper observation).modelBId [observation]
      (insertedRow upper observation id) where
  counts := by simp [insertedRow]
  directionVotes := by
    intro vote
    simpa [insertedRow, voted, List.countP_singleton] using
      tallies_voteDict (directionVote_ne_empty observation _ _) vote
  edgeKindVotes := by
    intro vote
    simpa [insertedRow, voted, List.countP_singleton] using
      tallies_voteDict (cleanOptionalText_ne_empty observation.edgeKindHint) vote

theorem Sums.add (hs : Sums (keyOf upper observation).modelAId (keyOf upper observation).modelBId
      observations row) :
    Sums (keyOf upper observation).modelAId (keyOf upper observation).modelBId
      (observations ++ [observation]) (addedRow upper observation row) where
  counts := by
    intro signal
    simp [addedRow, hs.counts signal]
  directionVotes := by
    simpa [addedRow, List.countP_append, List.countP_singleton, voted] using
      hs.directionVotes.merge (directionVote_ne_empty observation _ _)
  edgeKindVotes := by
    simpa [addedRow, List.countP_append, List.countP_singleton, voted] using
      hs.edgeKindVotes.merge (cleanOptionalText_ne_empty observation.edgeKindHint)

theorem Sums.setConfidence (hs : Sums modelAId modelBId observations row) (confidence : ℚ) :
    Sums modelAId modelBId observations { row with confidenceScore := confidence } :=
  ⟨hs.counts, hs.directionVotes, hs.edgeKindVotes⟩

theorem scored_setConfidence (row : PairRow) :
    Scored { row with confidenceScore := confidenceFromPairEvidence row.counts } := by
  simp only [Scored, sub_self, abs_zero]
  norm_num

end

section

variable (upper : String → String) (key : PairKey) (observations : List PairEvidenceObservation)

def observedOf : List PairEvidenceObservation :=
  observations.filter fun observation => keyOf upper observation = key

/-- What the table has under a key after these observations of any pairs. -/
def Aggregates : Option PairRow → Prop
  | none => observedOf upper key observations = []
  | some row => observedOf upper key observations ≠ [] ∧ Scored row ∧
    Sums key.modelAId key.modelBId (observedOf upper key observations) row

end

theorem observedOf_append (upper : String → String) (key : PairKey)
    (earlier later : List PairEvidenceObservation) : observedOf upper key (earlier ++ later) =
      observedOf upper key earlier ++ observedOf upper key later :=
  List.filter_append _ _

variable {upper : String → String} {key : PairKey}

theorem observedOf_others (earlier : List PairEvidenceObservation)
    (ho : ∀ observation ∈ u, keyOf upper observation ≠ key) :
    observedOf upper key (earlier ++ u) = observedOf upper key earlier := by
  have hn : observedOf upper key u = [] := by
    rw [observedOf, List.filter_eq_nil_iff]
    intro observation hm
    simpa using ho observation hm
  rw [observedOf_append, hn, List.append_nil]

theorem observedOf_append_one (earlier : List PairEvidenceObservation)
    (hk : keyOf upper observation = key) : observedOf upper key (earlier ++ [observation]) =
      observedOf upper key earlier ++ [observation] := by
  simp [observedOf, hk]

theorem aggregates_congr
    (hs : observedOf upper key first = observedOf upper key second) (row : Option PairRow) :
    Aggregates upper key first row ↔ Aggregates upper key second row := by
  cases row <;> simp [Aggregates, hs]

/-- For each key, what the session found and what it leaves are so related. The
rows it does not hold it leaves as they are. -/
structure Leaves (upper : String → String) (R : PairKey → Option PairRow → Option PairRow → Prop)
    (s : PairTable) (trail : Trail PairWrite PairKey) : Prop where
  covered : ∀ write ∈ trail.writes, write.key ∈ trail.locks
  rows : ∀ key, R key (s.get key) (((pairSchema upper).view s trail.writes).get key)
  idle : ∀ key, key ∉ trail.locks → ∀ row, R key row row

section

variable {upper : String → String} {R R' : PairKey → Option PairRow → Option PairRow → Prop}
  {s t : PairTable} {trail : Trail PairWrite PairKey}

theorem Leaves.stable (hl : Leaves upper R s trail)
    (hr : (rowDiscipline upper).Rely trail s t) : Leaves upper R t trail where
  covered := hl.covered
  idle := hl.idle
  rows := by
    intro key
    by_cases hh : key ∈ trail.locks
    · have hs : t.get key = s.get key := hr key hh
      rw [get_view_congr hs, hs]
      exact hl.rows key
    · have hu : ∀ w ∈ trail.writes, w.key ≠ key := by
        intro w hw he
        exact hh (he ▸ hl.covered w hw)
      rw [get_view_of_untouched hu]
      exact hl.idle key hh _

theorem Leaves.mint (hl : Leaves upper R s trail) (id : Nat) : Leaves upper R s (trail.mint id) :=
  ⟨hl.covered, hl.rows, hl.idle⟩

variable {key : PairKey}

theorem Leaves.extend (hlv : Leaves upper R s trail) (hh : key ∈ lock.toList ++ trail.locks)
    (hk : ∀ w ∈ u, w.key = key)
    (hothers : ∀ other before after, other ≠ key → R other before after → R' other before after)
    (hrel : ∀ before, R key before (((pairSchema upper).view s trail.writes).get key) →
      R' key before (((pairSchema upper).view s (trail.writes ++ u)).get key)) :
    Leaves upper R' s (trail.extend lock u) where
  covered := by
    intro w hw
    rcases List.mem_append.mp hw with hp | hl
    · exact List.mem_append_right _ (hlv.covered w hp)
    · exact hk w hl ▸ hh
  rows := by
    intro other
    by_cases hs : other = key
    · subst hs
      exact hrel _ (hlv.rows other)
    · have hu : ∀ w ∈ u, w.key ≠ other := by
        intro w hw he
        exact hs (he.symm.trans (hk w hw))
      have hr : ((pairSchema upper).view s (trail.writes ++ u)).get other =
          ((pairSchema upper).view s trail.writes).get other := by
        rw [Schema.view_append]
        exact get_view_of_untouched hu
      simp only [Trail.extend, hr]
      exact hothers other _ _ hs (hlv.rows other)
  idle := by
    intro other ho row
    have hn : other ∉ trail.locks := fun h => ho (List.mem_append_right _ h)
    have hne : other ≠ key := fun h => ho (h ▸ hh)
    exact hothers other _ _ hne (hlv.idle other hn row)

theorem Leaves.hold (hl : Leaves upper R s trail)
    (ho : ∀ other before after, other ≠ key → R other before after → R' other before after)
    (hrel : ∀ before, R key before (((pairSchema upper).view s trail.writes).get key) →
      R' key before (((pairSchema upper).view s trail.writes).get key)) :
    Leaves upper R' s (trail.extend (some key) []) := by
  have hh : key ∈ (some key).toList ++ trail.locks := by simp
  apply hl.extend hh _ ho
  · simpa using hrel
  · intro w hw
    cases hw

theorem Leaves.write (hl : Leaves upper R s trail) {w : PairWrite} (hk : w.key = key)
    (hothers : ∀ other before after, other ≠ key → R other before after → R' other before after)
    (hrel : ∀ before, R key before (((pairSchema upper).view s trail.writes).get key) →
      R' key before (w.onRow (((pairSchema upper).view s trail.writes).get key))) :
    Leaves upper R' s (trail.extend (some key) [w]) := by
  have hh : key ∈ (some key).toList ++ trail.locks := by simp
  apply hl.extend hh _ hothers
  · intro before hb
    rw [get_view_append_one hk]
    exact hrel before hb
  · intro other ho
    rw [List.mem_singleton.mp ho, hk]

end

section

variable (upper : String → String) (observations : List PairEvidenceObservation)

def Counted (key : PairKey) (before after : Option PairRow) : Prop :=
  ∀ earlier, Aggregates upper key earlier before → Aggregates upper key (earlier ++ observations) after

def Reread (observed : PairKey) (row : PairRow) (key : PairKey) (before after : Option PairRow) :
    Prop :=
  Counted upper observations key before after ∧ (key = observed → after = some row)

def Unscored (observed : PairKey) (row : PairRow) (key : PairKey) (before after : Option PairRow) :
    Prop :=
  if key = observed then
    after = some row ∧ ∀ earlier, Aggregates upper key earlier before →
      observedOf upper key (earlier ++ observations) ≠ [] ∧
        Sums key.modelAId key.modelBId (observedOf upper key (earlier ++ observations)) row
  else
    Counted upper observations key before after

end

section

variable {upper : String → String} {done : List PairEvidenceObservation}
  {observation : PairEvidenceObservation} {key : PairKey} {row : PairRow}
  {before after : Option PairRow}

section

variable (hc : Counted upper done key before after) (ho : key ≠ keyOf upper observation)

include hc ho

theorem Counted.of_others : Counted upper (done ++ [observation]) key before after := by
  intro earlier hb
  rw [← List.append_assoc]
  have hs : observedOf upper key (earlier ++ done ++ [observation]) =
      observedOf upper key (earlier ++ done) := by
    apply observedOf_others
    intro other hm
    rw [List.mem_singleton.mp hm]
    exact ho.symm
  exact (aggregates_congr hs after).mpr (hc earlier hb)

theorem Unscored.of_others : Unscored upper (done ++ [observation])
    (keyOf upper observation) row key before after := by
  rw [Unscored, if_neg ho]
  exact hc.of_others ho

end

theorem Counted.inserted (hc : Counted upper done (keyOf upper observation) before none)
    (id : Nat) : Unscored upper (done ++ [observation]) (keyOf upper observation)
      (insertedRow upper observation id) (keyOf upper observation) before
      (some (insertedRow upper observation id)) := by
  rw [Unscored, if_pos rfl]
  refine ⟨rfl, fun earlier hb => ?_⟩
  have hn : observedOf upper (keyOf upper observation) (earlier ++ done) = [] :=
    hc earlier hb
  rw [← List.append_assoc, observedOf_append_one _ rfl, hn, List.nil_append]
  exact ⟨List.cons_ne_nil _ _, sums_inserted id⟩

theorem Reread.added
    (hrr : Reread upper done (keyOf upper observation) row (keyOf upper observation) before after) :
    Unscored upper (done ++ [observation]) (keyOf upper observation)
      (addedRow upper observation row) (keyOf upper observation) before
      (some (addedRow upper observation row)) := by
  obtain ⟨hc, ha⟩ := hrr
  rw [Unscored, if_pos rfl]
  refine ⟨rfl, fun earlier hb => ?_⟩
  have hag := hc earlier hb
  rw [ha rfl] at hag
  rw [← List.append_assoc, observedOf_append_one _ rfl]
  exact ⟨by simp, hag.2.2.add⟩

theorem Unscored.scored (hu : Unscored upper done (keyOf upper observation) row key before after)
    (hs : Scored row) : Counted upper done key before after := by
  unfold Unscored at hu
  split at hu
  · obtain ⟨rfl, hsm⟩ := hu
    intro earlier hb
    obtain ⟨hn, hr⟩ := hsm earlier hb
    exact ⟨hn, hs, hr⟩
  · exact hu

end

def pairAccount (upper : String → String) : Account (rowDiscipline upper) where
  Owes observations := Leaves upper (Counted upper observations)
  final howes := howes.covered
  stable _ howes hrely _ := howes.stable hrely

section Calls

variable {upper : String → String} {done : List PairEvidenceObservation}
  {observation : PairEvidenceObservation} {s : PairTable} {trail : Trail PairWrite PairKey}

variable {row : PairRow}

theorem rowLock_of_some (hr : db.get key = some row) : rowLock key db = some key := by
  rw [rowLock, hr, Option.map_some]

theorem wp_updatePairConfidence
    (hl : Leaves upper (Unscored upper done (keyOf upper observation) row) s trail) :
    (rowDiscipline upper).wp (fun _ => Leaves upper (Counted upper done))
      (updatePairConfidence { row with key := keyOf upper observation }) s trail := by
  unfold updatePairConfidence
  dsimp only
  split
  · next hf =>
    exact
      { covered := hl.covered
        rows := fun key => (hl.rows key).scored hf
        idle := fun key hk current => (hl.idle key hk current).scored hf }
  · apply Discipline.wp_query
    intro t hrl _ _ ws v ha
    have ht := hl.stable hrl
    have hr := ht.rows (keyOf upper observation)
    rw [Unscored, if_pos rfl] at hr
    rw [hr.1] at ha
    cases ha
    rw [rowLock_of_some hr.1]
    refine ht.write rfl ?_ ?_
    · intro other before after hne hu
      rwa [Unscored, if_neg hne] at hu
    · intro before hu earlier hb
      rw [Unscored, if_pos rfl] at hu
      obtain ⟨hn, hs⟩ := hu.2 earlier hb
      rw [hr.1]
      exact ⟨hn, scored_setConfidence row, hs.setConfidence _⟩

def AfterInsert (upper : String → String) (done : List PairEvidenceObservation)
    (observation : PairEvidenceObservation) (row : PairRow) :
    Option ModelPairEvidence → PairTable → Trail PairWrite PairKey → Prop
  | some aggregate, s, trail => aggregate = { row with key := keyOf upper observation } ∧
    Leaves upper (Unscored upper (done ++ [observation]) (keyOf upper observation) row) s trail
  | none, s, trail => Leaves upper (Counted upper done) s trail

theorem wp_insertPairEvidence (hl : Leaves upper (Counted upper done) s trail) (id : Nat) :
    (rowDiscipline upper).wp (AfterInsert upper done observation (insertedRow upper observation id))
      (insertPairEvidence (keyOf upper observation) (insertedRow upper observation id)) s trail := by
  apply Discipline.wp_query
  intro t hr _ _ ws inserted ha
  have ht := hl.stable hr
  split at ha
  · split at ha
    · next hthere =>
      cases ha
      rw [if_pos hthere, Trail.extend_nothing]
      exact ht
    · next hm =>
      have hn := Option.not_isSome_iff_eq_none.mp hm
      cases ha
      rw [if_neg hm]
      refine ⟨rfl, ht.write rfl ?_ ?_⟩
      · intro other before after hne hc
        exact Unscored.of_others hc hne
      · intro before hc
        rw [hn] at hc ⊢
        exact hc.inserted id
  · cases ha

theorem wp_reread (hl : Leaves upper (Counted upper done) s trail) : (rowDiscipline upper).wp
      (fun current t u => ∀ row, current = some row →
        Leaves upper (Reread upper done (keyOf upper observation) row) t u)
      (Tx.readLocking (rowLock (keyOf upper observation)) fun db =>
        db.get (keyOf upper observation)) s trail := by
  apply wp_readLocking
  intro t hrl _ _ row hr
  have ht := hl.stable hrl
  rw [rowLock_of_some hr]
  refine ht.hold ?_ ?_
  · intro other before after hn hc
    exact ⟨hc, fun hs => absurd hs hn⟩
  · intro before hc
    exact ⟨hc, fun _ => hr⟩

theorem wp_addPairEvidence
    (hl : Leaves upper (Reread upper done (keyOf upper observation) row) s trail) :
    (rowDiscipline upper).wp
      (AfterInsert upper done observation (addedRow upper observation row) ∘ some)
      (addPairEvidence (keyOf upper observation) observation.delta
        (addedRow upper observation row).directionVotes
        (addedRow upper observation row).edgeKindVotes
        (addedRow upper observation row).metadata) s trail := by
  apply Discipline.wp_query
  intro t hrl _ _ ws aggregate ha
  have ht := hl.stable hrl
  have hr := (ht.rows (keyOf upper observation)).2 rfl
  rw [hr] at ha
  dsimp only at ha
  split at ha
  · cases ha
    rw [rowLock_of_some hr]
    refine ⟨rfl, ht.write rfl ?_ ?_⟩
    · intro other before after hn hrr
      exact Unscored.of_others hrr.1 hn
    · intro before hrr
      rw [hr]
      exact hrr.added
  · cases ha

theorem wp_recordPairObservation (hl : Leaves upper (Counted upper done) s trail) :
    (rowDiscipline upper).wp (fun _ => Leaves upper (Counted upper (done ++ [observation])))
      (recordPairObservation upper observation) s trail := by
  refine wp_bind.mpr (wp_ofExcept fun _ _ => ?_)
  refine wp_bind.mpr (wp_ofExcept fun pair hp => ?_)
  obtain rfl := canonicalModelPair_ok hp
  refine wp_bind.mpr (wp_newId fun t id hr _ _ _ => ?_)
  apply wp_seq (wp_insertPairEvidence ((hl.stable hr).mint id) id)
  intro inserted t₁ u hi
  cases inserted with
  | some aggregate =>
    obtain ⟨rfl, hu⟩ := hi
    exact wp_updatePairConfidence hu
  | none =>
    apply wp_seq (wp_reread hi)
    intro current t₂ later₂ hc
    cases current with
    | none => trivial
    | some row =>
      apply wp_seq (wp_addPairEvidence (hc row rfl))
      intro aggregate t₃ later₃ ha
      obtain ⟨rfl, hu⟩ := ha
      exact wp_updatePairConfidence hu

theorem wp_recordAll (observations : List PairEvidenceObservation)
    (hl : Leaves upper (Counted upper done) s trail) :
    (rowDiscipline upper).wp (fun _ => Leaves upper (Counted upper (done ++ observations)))
      (recordAll upper observations) s trail := by
  induction observations generalizing done s trail with
  | nil =>
    rw [List.append_nil]
    exact hl
  | cons observation rest ih =>
    apply Discipline.wp_seq (R := fun _ => Leaves upper (Counted upper (done ++ [observation])))
    · exact wp_seq (wp_recordPairObservation hl) fun _ _ _ hr => hr
    · intro _ t u hr
      have ht := ih hr
      rwa [List.append_assoc, List.singleton_append] at ht

theorem pairAccount_sound (upper : String → String) : (pairAccount upper).Sound := by
  intro observations s _ _
  have hs : Leaves upper (Counted upper []) s {} :=
    { covered := fun w hw => absurd hw List.not_mem_nil
      rows := fun key earlier hb => by simpa using hb
      idle := fun key _ row earlier hb => by simpa using hb }
  exact wp_recordAll observations hs

end Calls

def joins (tenantId left right : Nat) (primitive : String) (key : PairKey) : Bool :=
  key.tenantId = tenantId ∧ key.primitive = primitive ∧
    (key.modelAId = left ∧ key.modelBId = right ∨ key.modelAId = right ∧ key.modelBId = left)

section

variable (upper : String → String) (tenantId left right : Nat) (primitive : String)

def concerns (observation : PairEvidenceObservation) : Bool :=
  observation.tenantId = tenantId ∧ normalizePrimitive upper observation.primitive = primitive ∧
    (observation.leftModelId = left ∧ observation.rightModelId = right ∨
      observation.leftModelId = right ∧ observation.rightModelId = left)

def committedObservations
    (run : CommitLog PairTable PairWrite PairKey PairError (List PairEvidenceObservation)) : List
    PairEvidenceObservation :=
  run.log.flatten.filter (concerns upper tenantId left right primitive)

end

def committedRows (tenantId left right : Nat) (primitive : String)
    (run : CommitLog PairTable PairWrite PairKey PairError (List PairEvidenceObservation)) :
    List (PairKey × PairRow) :=
  run.config.committed.rows.filter fun entry => joins tenantId left right primitive entry.1

section

variable {upper : String → String} {tenantId left right : Nat} {primitive : String}

theorem concerns_iff (observation : PairEvidenceObservation) :
    concerns upper tenantId left right primitive observation ↔
      keyOf upper observation = ⟨tenantId, min left right, max left right, primitive⟩ := by
  simp only [concerns, keyOf, decide_eq_true_eq, PairKey.mk.injEq]
  constructor
  · rintro ⟨rfl, rfl, ⟨rfl, rfl⟩ | ⟨rfl, rfl⟩⟩
    · exact ⟨rfl, rfl, rfl, rfl⟩
    · exact ⟨rfl, min_comm _ _, max_comm _ _, rfl⟩
  · rintro ⟨rfl, hm, hmx, rfl⟩
    exact ⟨rfl, rfl, by omega⟩

theorem observedOf_eq_filter_concerns (observations : List PairEvidenceObservation) :
    observedOf upper ⟨tenantId, min left right, max left right, primitive⟩ observations =
      observations.filter (concerns upper tenantId left right primitive) := by
  apply List.filter_congr
  intro observation _
  rw [Bool.eq_iff_iff, concerns_iff, decide_eq_true_eq]

variable {key : PairKey}

theorem aggregates_of_reach (hr : Transition.Reach (CommitLog.step (pairSchema upper)) anyStep
      (CommitLog.start start n) run) (hn : start.get key = none) :
    Aggregates upper key run.log.flatten (run.config.committed.get key) := by
  apply Account.kept_of_reach (A := pairAccount upper)
    (P := fun committed log => Aggregates upper key log.flatten (committed.get key))
    (pairAccount_sound upper) _ _ trivial (fun _ _ => trivial) _ hr
  · intro committed log observations trail hk _ ho
    rw [List.flatten_append, List.flatten_singleton]
    exact ho.rows key log.flatten hk
  · intro c action _
    cases action with
    | begin sid call => trivial
    | statement sid => exact fun _ _ => trivial
    | commit sid => trivial
    | rollback sid => trivial
  · rw [hn]
    rfl

theorem Aggregates.ordered (ha : Aggregates upper key observations (some row)) :
    key.modelAId ≤ key.modelBId := by
  obtain ⟨observation, hm⟩ := List.exists_mem_of_ne_nil _ ha.1
  have hk : keyOf upper observation = key := by simpa [observedOf] using (List.mem_filter.mp hm).2
  rw [← hk]
  exact min_le_max

theorem joins_iff_of_ordered (ho : key.modelAId ≤ key.modelBId) :
    joins tenantId left right primitive key ↔
      key = ⟨tenantId, min left right, max left right, primitive⟩ := by
  obtain ⟨keyTenant, modelAId, modelBId, keyPrimitive⟩ := key
  simp only [joins, decide_eq_true_eq, PairKey.mk.injEq] at ho ⊢
  constructor
  · rintro ⟨rfl, rfl, hp⟩
    exact ⟨rfl, by omega, by omega, rfl⟩
  · rintro ⟨rfl, rfl, rfl, rfl⟩
    exact ⟨rfl, rfl, by omega⟩

/-- Whatever commits and whatever is rolled back, in any order: the committed
observations of two Models make one row, and it holds their sums. Without one
there is no row. -/
theorem pair_evidence_exact {start : PairTable} {supply : Nat}
    (hnew : ∀ key, joins tenantId left right primitive key → start.get key = none)
    {run : CommitLog PairTable PairWrite PairKey PairError (List PairEvidenceObservation)}
    (hreach : Transition.Reach (CommitLog.step (pairSchema upper)) anyStep
      (CommitLog.start start supply) run) :
    let observed := committedObservations upper tenantId left right primitive run
    if observed = [] then committedRows tenantId left right primitive run = []
    else ∃ row, committedRows tenantId left right primitive run =
        [(⟨tenantId, min left right, max left right, primitive⟩, row)] ∧
      Sums (min left right) (max left right) observed row ∧ Scored row := by
  have hkept : ∀ key, joins tenantId left right primitive key →
      Aggregates upper key run.log.flatten (run.config.committed.get key) :=
    fun key hjoins => aggregates_of_reach hreach (hnew key hjoins)
  have hcanonical : joins tenantId left right primitive
      ⟨tenantId, min left right, max left right, primitive⟩ :=
    (joins_iff_of_ordered min_le_max).mpr rfl
  have hrows : committedRows tenantId left right primitive run =
      ((run.config.committed.get ⟨tenantId, min left right, max left right, primitive⟩).map
        fun row => (⟨tenantId, min left right, max left right, primitive⟩, row)).toList := by
    apply Table.filter_rows_key
    intro other row hget
    constructor
    · intro hjoins
      have hother := hkept other hjoins
      rw [hget] at hother
      exact (joins_iff_of_ordered hother.ordered).mp hjoins
    · rintro rfl
      exact hcanonical
  have haggregates := hkept _ hcanonical
  rw [hrows]
  cases hrow : run.config.committed.get ⟨tenantId, min left right, max left right, primitive⟩ with
  | none =>
    rw [hrow, Aggregates, observedOf_eq_filter_concerns] at haggregates
    rw [committedObservations, if_pos haggregates]
    rfl
  | some row =>
    rw [hrow, Aggregates, observedOf_eq_filter_concerns] at haggregates
    obtain ⟨hnonempty, hscored, hsums⟩ := haggregates
    rw [committedObservations, if_neg hnonempty]
    exact ⟨row, rfl, hsums, hscored⟩

end

private def retrieved (left right : Nat) : PairEvidenceObservation where
  tenantId := 0
  leftModelId := left
  rightModelId := right
  delta := fun signal => if signal = .coRetrieved then 1 else 0
  directedSourceModelId := some left
  directedTargetModelId := some right

/-- The second session finds the row of the first only after that one has
committed; the third is rolled back. -/
private def threeSessions : List (Action (List PairEvidenceObservation)) :=
  [.begin 0 [retrieved 1 2], .begin 1 [retrieved 2 1], .begin 2 [retrieved 1 2],
    .statement 0, .statement 1, .statement 0, .statement 0, .commit 0,
    .statement 1, .statement 1, .statement 1, .statement 1, .commit 1,
    .statement 2, .statement 2, .statement 2, .rollback 2]

private def threeSessionsRun :
    Option (CommitLog PairTable PairWrite PairKey PairError (List PairEvidenceObservation)) :=
  Transition.runAll (CommitLog.step (pairSchema id)) (CommitLog.start ∅ 0) threeSessions

private def contribution (observation : PairEvidenceObservation) : Int × Option String :=
  (observation.delta .coRetrieved, directionVote observation 1 2)

theorem pair_evidence_exact_three : ∃ run row,
    threeSessionsRun = some run ∧ run.config.sessions.get 1 = none ∧
    committedRows 0 1 2 "UNKNOWN" run = [(⟨0, 1, 2, "UNKNOWN"⟩, row)] ∧
    row.counts .coRetrieved = 2 ∧ row.directionVotes.get "a_to_b" = some 1 ∧
    row.directionVotes.get "b_to_a" = some 1 ∧ Scored row := by
  obtain ⟨run, hrun⟩ := Option.isSome_iff_exists.mp (show threeSessionsRun.isSome by decide +kernel)
  have hended : threeSessionsRun.map (fun run => (run.config.sessions.get 1).isNone) =
      some true := by decide +kernel
  have hobserved : threeSessionsRun.map (fun run =>
      (committedObservations id 0 1 2 "UNKNOWN" run).map contribution) =
        some [(1, some "a_to_b"), (1, some "b_to_a")] := by decide +kernel
  rw [hrun, Option.map_some, Option.some.injEq] at hended hobserved
  have hnonempty : committedObservations id 0 1 2 "UNKNOWN" run ≠ [] := by
    intro hempty
    rw [hempty] at hobserved
    cases hobserved
  have hnew : ∀ key, joins 0 1 2 "UNKNOWN" key → (∅ : PairTable).get key = none :=
    fun _ _ => rfl
  have hreach : Transition.Reach (CommitLog.step (pairSchema id)) anyStep
      (CommitLog.start ∅ 0) run := reach_of_run hrun
  have hexact := pair_evidence_exact hnew hreach
  rw [if_neg hnonempty] at hexact
  obtain ⟨row, hrows, hsums, hscored⟩ := hexact
  have hcounts : (committedObservations id 0 1 2 "UNKNOWN" run).map
      (fun observation => observation.delta .coRetrieved) = [1, 1] := by
    have hfirst := congrArg (List.map Prod.fst) hobserved
    rwa [List.map_map] at hfirst
  have hvotes : ∀ vote, (committedObservations id 0 1 2 "UNKNOWN" run).countP
      (fun observation => directionVote observation 1 2 = some vote) =
        [some "a_to_b", some "b_to_a"].countP (fun cast => cast = some vote) := by
    intro vote
    have hsecond := congrArg (List.countP fun added => decide (added.2 = some vote)) hobserved
    rwa [List.countP_map] at hsecond
  refine ⟨run, row, hrun, Option.isNone_iff_eq_none.mp hended, hrows, ?_, ?_, ?_, hscored⟩
  · rw [hsums.counts, hcounts]
    rfl
  · rw [hsums.directionVotes]
    simp only [show min 1 2 = 1 from rfl, show max 1 2 = 2 from rfl, hvotes]
    decide
  · rw [hsums.directionVotes]
    simp only [show min 1 2 = 1 from rfl, show max 1 2 = 2 from rfl, hvotes]
    decide

private def rolledBackRun :
    Option (CommitLog PairTable PairWrite PairKey PairError (List PairEvidenceObservation)) :=
  Transition.runAll (CommitLog.step (pairSchema id)) (CommitLog.start ∅ 0)
    [.begin 0 [retrieved 1 2], .statement 0, .statement 0, .statement 0, .rollback 0]

/-- Where every session is rolled back, there is no row. -/
theorem pair_row_missing : ∃ run, rolledBackRun = some run ∧
    run.config.sessions.get 0 = none ∧ committedRows 0 1 2 "UNKNOWN" run = [] := by
  obtain ⟨run, hrun⟩ := Option.isSome_iff_exists.mp (show rolledBackRun.isSome by decide +kernel)
  have hended : rolledBackRun.map (fun run => (run.config.sessions.get 0).isNone) =
      some true := by decide +kernel
  have hrows : rolledBackRun.map (fun run => (committedRows 0 1 2 "UNKNOWN" run).isEmpty) =
      some true := by decide +kernel
  rw [hrun, Option.map_some, Option.some.injEq] at hended hrows
  exact ⟨run, hrun, Option.isNone_iff_eq_none.mp hended, List.isEmpty_iff.mp hrows⟩

end FyralisCore.EdgeIntelligence
