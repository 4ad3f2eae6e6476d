import Mathlib.Init

/-! Labelled transition systems given by a partial step function. A run may
only take the steps that `allowed` admits in the state they start from, so that
a result about all runs and a result about the runs whose steps meet a
condition are the same statement at two instances. -/
namespace Transition

variable {S A : Type}

/-- The states that runs from `start` reach. -/
inductive Reach (step : S → A → Option S) (allowed : S → A → Prop) (start : S) : S → Prop where
  | start : Reach step allowed start start
  | next {s t : S} {a : A} : Reach step allowed start s → allowed s a → step s a = some t →
      Reach step allowed start t

def anyStep (_ : S) (_ : A) : Prop := True

variable {step : S → A → Option S} {allowed : S → A → Prop} {start s t : S}

/-- What holds at the start and is kept by every admitted step holds in every
state reached. -/
theorem Reach.invariant {P : S → Prop} (hr : Reach step allowed start s) (hs0 : P start)
    (hs : ∀ s a t, P s → allowed s a → step s a = some t → P t) : P s := by
  induction hr with
  | start => exact hs0
  | next _ ha hn ih => exact hs _ _ _ ih ha hn

theorem Reach.invariant_of {P Q : S → Prop} (hr : Reach step allowed start s)
    (hk : ∀ s, Reach step allowed start s → Q s) (hs0 : P start)
    (hs : ∀ s a t, P s → Q s → allowed s a → step s a = some t → P t) : P s := by
  induction hr with
  | start => exact hs0
  | next hp ha hn ih =>
    exact hs _ _ _ ih (hk _ hp) ha hn

theorem Reach.trans (h1 : Reach step allowed start s) (h2 : Reach step allowed s t) :
    Reach step allowed start t := by
  induction h2 with
  | start => exact h1
  | next _ ha hn ih => exact ih.next ha hn

theorem Reach.mono (hr : Reach step allowed start s)
    (hw : ∀ s a, allowed s a → weaker s a) : Reach step weaker start s := by
  induction hr with
  | start => exact .start
  | next _ ha hn ih => exact ih.next (hw _ _ ha) hn

def runAll (step : S → A → Option S) (s : S) : List A → Option S
  | [] => some s
  | a :: rest => (step s a).bind fun t => runAll step t rest

theorem runAll_append (before rest : List A) :
    runAll step s (before ++ rest) = (runAll step s before).bind fun t => runAll step t rest := by
  induction before generalizing s with
  | nil => rfl
  | cons a before ih =>
    simp only [List.cons_append, runAll, Option.bind_assoc]
    congr 1
    funext t
    exact ih

theorem runAll_concat : runAll step start (actions ++ [a]) = some t ↔
    ∃ s, runAll step start actions = some s ∧ step s a = some t := by
  simp [runAll_append, runAll, Option.bind_eq_some_iff]

/-- `P` holds of every step that the run of `actions` takes. -/
def EachStep (step : S → A → Option S) (P : S → S → A → Prop) (start : S) (actions : List A) :
    Prop :=
  ∀ before a rest s t, actions = before ++ a :: rest → runAll step start before = some s →
    step s a = some t → P s t a

theorem eachStep_concat {P : S → S → A → Prop} : EachStep step P start (actions ++ [a]) ↔
    EachStep step P start actions ∧
      ∀ s t, runAll step start actions = some s → step s a = some t → P s t a := by
  constructor
  · intro h
    refine ⟨fun before b rest s t he => ?_, fun s t => h actions a [] s t rfl⟩
    exact h before b (rest ++ [a]) s t (by simp [he])
  · rintro ⟨hb, hl⟩ before b rest s t he hr hs
    rcases List.eq_nil_or_concat rest with rfl | ⟨rest, c, rfl⟩
    · obtain ⟨rfl, h⟩ := List.append_inj' he rfl
      cases h
      exact hl s t hr hs
    · refine hb before b rest s t ?_ hr hs
      rw [List.concat_eq_append, ← List.cons_append, ← List.append_assoc] at he
      exact (List.append_inj' he rfl).1

theorem reach_of_runAll (hr : Reach step allowed start s)
    (ha : ∀ a ∈ actions, ∀ s, allowed s a) (hrn : runAll step s actions = some t) :
    Reach step allowed start t := by
  induction actions generalizing s with
  | nil =>
    cases hrn
    exact hr
  | cons a rest ih =>
    obtain ⟨next, hn, ht⟩ := Option.bind_eq_some_iff.mp hrn
    exact ih (hr.next (ha a (.head _) s) hn) (fun b hb => ha b (.tail _ hb)) ht

theorem reach_of_run (hrn : runAll step start actions = some t) : Reach step anyStep start t :=
  reach_of_runAll .start (fun _ _ _ => trivial) hrn

/-- The run of a list of actions, each of which a test admits where it is taken. -/
def runChecked (step : S → A → Option S) (check : S → A → Bool) (s : S) : List A → Option S
  | [] => some s
  | a :: rest =>
    if check s a then (step s a).bind fun t => runChecked step check t rest else none

theorem reach_of_runChecked (hc : ∀ s a, check s a → allowed s a)
    (hrn : runChecked step check start actions = some t) : Reach step allowed start t := by
  have hg : ∀ {s}, Reach step allowed start s → runChecked step check s actions = some t →
      Reach step allowed start t := by
    clear hrn
    induction actions with
    | nil =>
      intro s hr hrn
      cases hrn
      exact hr
    | cons a rest ih =>
      intro s hr hrn
      obtain ⟨htr, hb⟩ := Option.ite_none_right_eq_some.mp hrn
      obtain ⟨next, hn, ht⟩ := Option.bind_eq_some_iff.mp hb
      exact ih (hr.next (hc s a htr) hn) ht
  exact hg .start hrn

end Transition
