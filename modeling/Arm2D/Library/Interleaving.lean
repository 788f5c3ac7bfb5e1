import Mathlib

/-! # Interleaved accesses to a store

Each event touches at most one place of a store. What a place holds in the end depends on the
events at this place alone, so processes that touch different places do not notice each other.
A process that visits some places, each of them once, does not notice either that events come
between its visits: they could have come before all of them or after. -/
namespace Arm2D.Library

variable {ι κ β ε σ : Type*}

section processes
variable [DecidableEq κ]

/-- The events of one process, in their order. -/
def eventsOf (k : κ) (schedule : List (κ × ε)) : List ε :=
  (schedule.filter fun s => s.1 = k).map Prod.snd

@[simp] lemma eventsOf_nil (k : κ) : eventsOf k ([] : List (κ × ε)) = [] := rfl

lemma eventsOf_cons (k : κ) (s : κ × ε) (schedule : List (κ × ε)) :
    eventsOf k (s :: schedule) =
      if s.1 = k then s.2 :: eventsOf k schedule else eventsOf k schedule := by
  unfold eventsOf
  rw [List.filter_cons]
  by_cases h : s.1 = k <;> simp [h]

lemma eventsOf_append (k : κ) (schedule others : List (κ × ε)) :
    eventsOf k (schedule ++ others) = eventsOf k schedule ++ eventsOf k others := by
  unfold eventsOf
  rw [List.filter_append, List.map_append]

lemma eventsOf_map_same (k : κ) (events : List ε) :
    eventsOf k (events.map fun e => (k, e)) = events := by
  induction events with
  | nil => rfl
  | cons e events ih => rw [List.map_cons, eventsOf_cons, if_pos rfl, ih]

lemma eventsOf_map_other {j k : κ} (h : j ≠ k) (events : List ε) :
    eventsOf k (events.map fun e => (j, e)) = [] := by
  induction events with
  | nil => rfl
  | cons e events ih => rw [List.map_cons, eventsOf_cons, if_neg h, ih]

lemma filter_eventsOf {p : ε → Bool} {k : κ} {schedule : List (κ × ε)}
    (h : ∀ s ∈ schedule, p s.2 = true → s.1 = k) :
    (schedule.map Prod.snd).filter p = (eventsOf k schedule).filter p := by
  induction schedule with
  | nil => rfl
  | cons s schedule ih =>
    have ih := ih fun s' hs' => h s' (List.mem_cons_of_mem s hs')
    rw [List.map_cons, List.filter_cons, eventsOf_cons]
    by_cases hp : p s.2 = true
    · rw [if_pos hp, if_pos (h s List.mem_cons_self hp), List.filter_cons, if_pos hp, ih]
    · rw [if_neg hp, ih]
      split_ifs with hk
      · rw [List.filter_cons, if_neg hp]
      · rfl

end processes

section events
variable [DecidableEq ι] (place : ε → Option ι) (act : ε → β → β)

def touch (store : ι → β) (e : ε) : ι → β :=
  match place e with
  | none => store
  | some i => Function.update store i (act e (store i))

lemma touch_same {e : ε} {i : ι} (h : place e = some i) (store : ι → β) :
    touch place act store e i = act e (store i) := by
  rw [touch, h]
  exact Function.update_self _ _ _

lemma touch_other {e : ε} {i : ι} (h : place e ≠ some i) (store : ι → β) :
    touch place act store e i = store i := by
  rw [touch]
  cases he : place e with
  | none => rfl
  | some j => exact Function.update_of_ne (fun hij => h (by rw [he, hij])) _ _

def eventsAt (i : ι) (events : List ε) : List ε := events.filter fun e => place e = some i

@[simp] lemma eventsAt_nil (i : ι) : eventsAt place i [] = [] := rfl

@[simp] lemma eventsAt_append (i : ι) (events others : List ε) :
    eventsAt place i (events ++ others) = eventsAt place i events ++ eventsAt place i others :=
  List.filter_append _ _

lemma eventsAt_cons_same {e : ε} {i : ι} (h : place e = some i) (events : List ε) :
    eventsAt place i (e :: events) = e :: eventsAt place i events :=
  List.filter_cons_of_pos (by simp [h])

lemma eventsAt_cons_other {e : ε} {i : ι} (h : place e ≠ some i) (events : List ε) :
    eventsAt place i (e :: events) = eventsAt place i events :=
  List.filter_cons_of_neg (by simp [h])

theorem foldl_touch (events : List ε) (store : ι → β) (i : ι) :
    events.foldl (touch place act) store i =
      (eventsAt place i events).foldl (fun b e => act e b) (store i) := by
  induction events generalizing store with
  | nil => rfl
  | cons e events ih =>
    rw [List.foldl_cons, ih]
    by_cases h : place e = some i
    · rw [eventsAt_cons_same place h, List.foldl_cons, touch_same place act h]
    · rw [eventsAt_cons_other place h, touch_other place act h]

/-- Runs with the same events at each place end alike. -/
theorem foldl_touch_congr {events others : List ε}
    (h : ∀ i, eventsAt place i events = eventsAt place i others) (store : ι → β) :
    events.foldl (touch place act) store = others.foldl (touch place act) store := by
  funext i
  rw [foldl_touch, foldl_touch, h]

theorem foldl_touch_owned [DecidableEq κ] {schedule : List (κ × ε)} {i : ι} {k : κ}
    (h : ∀ s ∈ schedule, place s.2 = some i → s.1 = k) (store : ι → β) :
    (schedule.map Prod.snd).foldl (touch place act) store i =
      (eventsOf k schedule).foldl (touch place act) store i := by
  rw [foldl_touch, foldl_touch]
  unfold eventsAt
  rw [filter_eventsOf]
  exact fun s hs hp => h s hs (of_decide_eq_true hp)

variable (visit : ι → σ → β → σ × β)

def visitAt (x : σ × (ι → β)) (i : ι) : σ × (ι → β) :=
  ((visit i x.1 (x.2 i)).1, Function.update x.2 i (visit i x.1 (x.2 i)).2)

/-- Visits to the places of a list, at the times where the schedule has nothing, with the
events of the schedule between them. The visits that it does not reach follow at the end. -/
def interleaved : List (Option ε) → List ι → σ × (ι → β) → σ × (ι → β)
  | [], places, x => places.foldl (visitAt visit) x
  | some e :: schedule, places, x =>
    interleaved schedule places (x.1, touch place act x.2 e)
  | none :: schedule, [], x => interleaved schedule [] x
  | none :: schedule, i :: places, x => interleaved schedule places (visitAt visit x i)

/-- The events at a place that is still to be visited, and the others. -/
def earlyLate : List (Option ε) → List ι → List ε × List ε
  | [], _ => ([], [])
  | some e :: schedule, places =>
    let r := earlyLate schedule places
    if ∃ i ∈ places, place e = some i then (e :: r.1, r.2) else (r.1, e :: r.2)
  | none :: schedule, places => earlyLate schedule places.tail

lemma visitAt_comm_touch {e : ε} {i : ι} (h : place e ≠ some i) (x : σ × (ι → β)) :
    visitAt visit (x.1, touch place act x.2 e) i =
      ((visitAt visit x i).1, touch place act (visitAt visit x i).2 e) := by
  unfold visitAt
  dsimp only
  rw [touch_other place act h]
  congr 1
  funext j
  unfold touch
  cases he : place e with
  | none => rfl
  | some k =>
    have hki : k ≠ i := fun hk => h (by rw [he, hk])
    dsimp only
    rw [Function.update_of_ne hki, Function.update_comm hki.symm]

lemma visitAt_comm_touches {events : List ε} {i : ι} (h : ∀ e ∈ events, place e ≠ some i)
    (x : σ × (ι → β)) :
    visitAt visit (x.1, events.foldl (touch place act) x.2) i =
      ((visitAt visit x i).1, events.foldl (touch place act) (visitAt visit x i).2) := by
  induction events generalizing x with
  | nil => rfl
  | cons e events ih =>
    have hrest := fun e' he' => h e' (List.mem_cons_of_mem e he')
    have hfirst := visitAt_comm_touch place act visit (h e List.mem_cons_self) x
    have ih := ih hrest (x.1, touch place act x.2 e)
    rw [List.foldl_cons, ih, hfirst, List.foldl_cons]

lemma visits_comm_touch {e : ε} {places : List ι} (h : ∀ i ∈ places, place e ≠ some i)
    (x : σ × (ι → β)) :
    places.foldl (visitAt visit) (x.1, touch place act x.2 e) =
      ((places.foldl (visitAt visit) x).1,
        touch place act (places.foldl (visitAt visit) x).2 e) := by
  induction places generalizing x with
  | nil => rfl
  | cons i places ih =>
    have hrest := fun j hj => h j (List.mem_cons_of_mem i hj)
    rw [List.foldl_cons, visitAt_comm_touch place act visit (h i List.mem_cons_self), ih hrest,
      List.foldl_cons]

lemma mem_early {schedule : List (Option ε)} {places : List ι} {e : ε}
    (h : e ∈ (earlyLate place schedule places).1) : ∃ i ∈ places, place e = some i := by
  induction schedule generalizing places with
  | nil => exact absurd h List.not_mem_nil
  | cons o schedule ih =>
    cases o with
    | none =>
      obtain ⟨i, hi, he⟩ := ih h
      exact ⟨i, List.mem_of_mem_tail hi, he⟩
    | some e' =>
      rw [earlyLate] at h
      split_ifs at h with hin
      · rcases List.mem_cons.mp h with rfl | h
        · exact hin
        · exact ih h
      · exact ih h

lemma touches_comm_touch {events : List ε} {e : ε}
    (h : ∀ i, place e = some i → eventsAt place i events = []) (store : ι → β) :
    events.foldl (touch place act) (touch place act store e) =
      touch place act (events.foldl (touch place act) store) e := by
  have hsame : (e :: events).foldl (touch place act) store =
      (events ++ [e]).foldl (touch place act) store := by
    apply foldl_touch_congr
    intro i
    rw [eventsAt_append]
    by_cases hi : place e = some i
    · rw [eventsAt_cons_same place hi, eventsAt_cons_same place hi, h i hi]
      rfl
    · rw [eventsAt_cons_other place hi, eventsAt_cons_other place hi, eventsAt_nil,
        List.append_nil]
  rw [List.foldl_append] at hsame
  exact hsame

lemma eventsAt_early_eq_nil {schedule : List (Option ε)} {places : List ι} {i : ι}
    (h : i ∉ places) : eventsAt place i (earlyLate place schedule places).1 = [] := by
  refine List.filter_eq_nil_iff.mpr fun e he hp => ?_
  obtain ⟨j, hj, hplace⟩ := mem_early place he
  rw [of_decide_eq_true hp] at hplace
  exact h (Option.some.inj hplace ▸ hj)

/-- Visits to different places with events between them: the early events could have come
before all visits, and the others after them. -/
theorem interleaved_eq {places : List ι} (hnodup : places.Nodup) (schedule : List (Option ε))
    (x : σ × (ι → β)) :
    interleaved place act visit schedule places x =
      let visited := places.foldl (visitAt visit)
        (x.1, (earlyLate place schedule places).1.foldl (touch place act) x.2)
      (visited.1, (earlyLate place schedule places).2.foldl (touch place act) visited.2) := by
  induction schedule, places, x using interleaved.induct place act visit with
  | case1 places x => rfl
  | case2 e schedule places x ih =>
    rw [interleaved, ih hnodup, earlyLate]
    dsimp only
    by_cases hin : ∃ i ∈ places, place e = some i
    · rw [if_pos hin]
      rfl
    · rw [if_neg hin]
      have hlate : ∀ i ∈ places, place e ≠ some i := fun i hi he => hin ⟨i, hi, he⟩
      rw [touches_comm_touch place act fun i he =>
        eventsAt_early_eq_nil place fun hi => hlate i hi he]
      have hvisits := visits_comm_touch place act visit hlate
        (x.1, (earlyLate place schedule places).1.foldl (touch place act) x.2)
      dsimp only at hvisits
      rw [hvisits]
      rfl
  | case3 schedule x ih =>
    rw [interleaved, ih hnodup, earlyLate]
    rfl
  | case4 schedule i places x ih =>
    obtain ⟨hi, hnodup⟩ := List.nodup_cons.mp hnodup
    have hearly : ∀ e ∈ (earlyLate place schedule places).1, place e ≠ some i := by
      intro e he heq
      obtain ⟨j, hj, hplace⟩ := mem_early place he
      obtain rfl : i = j := Option.some.inj (heq.symm.trans hplace)
      exact hi hj
    rw [interleaved, ih hnodup, earlyLate, List.tail_cons, List.foldl_cons,
      visitAt_comm_touches place act visit hearly]

theorem eventsAt_earlyLate (places : List ι) (schedule : List (Option ε)) (i : ι) :
    eventsAt place i (earlyLate place schedule places).1 ++
        eventsAt place i (earlyLate place schedule places).2 =
      eventsAt place i schedule.reduceOption := by
  induction schedule generalizing places with
  | nil => rfl
  | cons o schedule ih =>
    cases o with
    | none =>
      rw [List.reduceOption_cons_of_none]
      exact ih places.tail
    | some e =>
      rw [List.reduceOption_cons_of_some, earlyLate]
      by_cases hi : place e = some i
      · rw [eventsAt_cons_same place hi, ← ih places]
        split_ifs with hin
        · rw [eventsAt_cons_same place hi, List.cons_append]
        · have hnot : i ∉ places := fun hmem => hin ⟨i, hmem, hi⟩
          rw [eventsAt_cons_same place hi, eventsAt_early_eq_nil place hnot]
          rfl
      · rw [eventsAt_cons_other place hi, ← ih places]
        split_ifs with hin
        · rw [eventsAt_cons_other place hi]
        · rw [eventsAt_cons_other place hi]

variable (places : List ι) (start : σ)

def interleavedRounds : List (List (Option ε)) → (ι → β) → List σ × (ι → β)
  | [], store => ([], store)
  | schedule :: rounds, store =>
    let x := interleaved place act visit schedule places (start, store)
    let r := interleavedRounds rounds x.2
    (x.1 :: r.1, r.2)

def atomicRounds : List (List ε) → (ι → β) → List σ × (ι → β)
  | [], store => ([], store)
  | batch :: batches, store =>
    let x := places.foldl (visitAt visit) (start, batch.foldl (touch place act) store)
    let r := atomicRounds batches x.2
    (x.1 :: r.1, r.2)

/-- What is late for a round is early for the next one; some events may be left. -/
def batches : List ε → List (List (Option ε)) → List (List ε) × List ε
  | carried, [] => ([], carried)
  | carried, schedule :: rounds =>
    let r := batches (earlyLate place schedule places).2 rounds
    ((carried ++ (earlyLate place schedule places).1) :: r.1, r.2)

theorem interleavedRounds_eq (hnodup : places.Nodup) (carried : List ε)
    (rounds : List (List (Option ε))) (store : ι → β) :
    interleavedRounds place act visit places start rounds
        (carried.foldl (touch place act) store) =
      let b := batches place places carried rounds
      let r := atomicRounds place act visit places start b.1 store
      (r.1, b.2.foldl (touch place act) r.2) := by
  induction rounds generalizing carried store with
  | nil => rfl
  | cons schedule rounds ih =>
    rw [interleavedRounds, interleaved_eq place act visit hnodup, batches]
    dsimp only
    rw [atomicRounds, ← List.foldl_append, ih]

theorem batches_length (carried : List ε) (rounds : List (List (Option ε))) :
    (batches place places carried rounds).1.length = rounds.length := by
  induction rounds generalizing carried with
  | nil => rfl
  | cons schedule rounds ih => rw [batches, List.length_cons, ih, List.length_cons]

theorem eventsAt_batches (carried : List ε) (rounds : List (List (Option ε))) (i : ι) :
    eventsAt place i (batches place places carried rounds).1.flatten ++
        eventsAt place i (batches place places carried rounds).2 =
      eventsAt place i carried ++ eventsAt place i rounds.flatten.reduceOption := by
  induction rounds generalizing carried with
  | nil => simp [batches]
  | cons schedule rounds ih =>
    rw [batches, List.flatten_cons, List.flatten_cons, List.reduceOption_append,
      eventsAt_append, eventsAt_append, eventsAt_append, List.append_assoc, ih,
      ← eventsAt_earlyLate place places schedule i]
    simp only [List.append_assoc]

end events
end Arm2D.Library
