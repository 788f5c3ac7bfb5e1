import Arm2D.CameraReports
import Arm2D.CameraStream
import Arm2D.StringAccesses
import Arm2D.TargetReports

/-! # Camera threads that run side by side

`start_ports` starts a `UIInterfaceWriterThread` for each port of a sensor, and all of them
write into the same targets while the arm looks at these. A thread takes its tokens one at a
time, and between two of them, or between two passes of a look, anything may happen.
`data_test` and one pass are taken to be indivisible. -/
namespace Arm2D
open Library

namespace WriterThread

def takeAll : WriterThread → List Str → Logged Str WriterThread
  | w, [] => pure w
  | w, token :: tokens =>
    ⟨(takeAll (takeToken w token).val tokens).val,
      (takeToken w token).log ++ (takeAll (takeToken w token).val tokens).log⟩

theorem takeAll_append (w : WriterThread) (tokens others : List Str) :
    takeAll w (tokens ++ others) =
      ⟨(takeAll (takeAll w tokens).val others).val,
        (takeAll w tokens).log ++ (takeAll (takeAll w tokens).val others).log⟩ := by
  induction tokens generalizing w with
  | nil => rfl
  | cons token tokens ih =>
    rw [List.cons_append, takeAll, takeAll, ih]
    simp only [List.append_assoc]

theorem tokenLoop_eq (w : WriterThread) (data : Str) :
    tokenLoop w data = takeAll w (pieces data) := by
  induction hn : data.length using Nat.strong_induction_on generalizing w data with
  | _ n ih =>
    subst hn
    by_cases hnil : data = []
    · rw [hnil, tokenLoop, dif_pos rfl, pieces_nil]
      rfl
    · rcases find_comma_cases data with ⟨hfind, hcomma⟩ | ⟨a, s, rfl, ha, hfind⟩
      · rw [tokenLoop_of_ne_nil w data [] hnil (by rw [hfind]) (if_pos rfl),
          pieces_of_notMem hnil hcomma, tokenLoop, dif_pos rfl]
        rfl
      · have hne : a ≠ a ++ ',' :: s := fun h => ha (h ▸ by simp)
        rw [tokenLoop_of_ne_nil w a s hnil (by rw [hfind]; exact List.take_left)
          (by rw [if_neg hne, hfind]; simp), ih s.length (by simp; omega) _ s rfl,
          pieces_append ha]
        rfl

theorem runChunk_eq (w : WriterThread) (data : Str) :
    runChunk w data = takeAll w (tokensOf data) := by
  unfold runChunk tokensOf
  by_cases hnil : trimString data = []
  · simp [hnil, takeAll]
  · simp only [hnil, if_false]
    exact tokenLoop_eq w _

theorem run_eq (w : WriterThread) (reads : List Str) :
    run w reads = takeAll w (reads.flatMap tokensOf) := by
  induction reads generalizing w with
  | nil => rfl
  | cons data reads ih =>
    rw [run, List.flatMap_cons, takeAll_append, runChunk_eq, ih]

end WriterThread

section records
variable {R : Type} [Field R] [PiConstant R]

/-- A record as the report that `emit_record` makes of it. -/
def recordReport (data : Str) : Str × Str :=
  ((substr data 0 (find [','] data 0)).getD [],
    (substr data (posAfter (find [','] data 0)) none).getD [])

theorem emitRecord_eq_report (ts : Targets R) (data : Str) :
    WriterThread.emitRecord ts data =
      emitToTarget ts (recordReport data).1 (recordReport data).2 := by
  unfold WriterThread.emitRecord recordReport
  rw [substr_isSome (Nat.zero_le _), substr_isSome (posAfter_find_le _ _ _)]
  rfl

theorem emitRecords_eq_receive (records : List Str) (ts : Targets R) :
    records.foldlM WriterThread.emitRecord ts = receive (records.map recordReport) ts := by
  rw [receive, List.foldlM_map]
  congr
  funext ts data
  exact emitRecord_eq_report ts data

end records

structure CameraThreads (R : Type) where
  threads : ℕ → WriterThread
  targets : Targets R

namespace CameraThreads
variable {R : Type} [Field R] [PiConstant R]

def step (s : CameraThreads R) (event : ℕ × Str) : Option (CameraThreads R) := do
  let r := (s.threads event.1).takeToken event.2
  let targets ← r.log.foldlM WriterThread.emitRecord s.targets
  return ⟨Function.update s.threads event.1 r.val, targets⟩

def run (s : CameraThreads R) (schedule : List (ℕ × Str)) : Option (CameraThreads R) :=
  schedule.foldlM step s

def next (s : CameraThreads R) (event : ℕ × Str) : CameraThreads R :=
  let r := (s.threads event.1).takeToken event.2
  ⟨Function.update s.threads event.1 r.val, { s.targets with
    heap := (r.log.map recordReport).foldl (touch (reportPlace s.targets.targetMap) tested)
      s.targets.heap }⟩

theorem step_eq_next (s : CameraThreads R) (event : ℕ × Str) :
    s.step event = some (s.next event) := by
  unfold step
  dsimp only
  rw [emitRecords_eq_receive, receive_eq_touch]
  rfl

/-- Each thread does what it does alone, and its records reach the targets in its order. -/
theorem run_spec (s : CameraThreads R) (schedule : List (ℕ × Str)) :
    ∃ (threads : ℕ → WriterThread) (reports : List (ℕ × (Str × Str))),
      s.run schedule = some ⟨threads, { s.targets with
        heap := (reports.map Prod.snd).foldl (touch (reportPlace s.targets.targetMap) tested)
          s.targets.heap }⟩ ∧
      ∀ k, threads k = ((s.threads k).takeAll (eventsOf k schedule)).val ∧
        eventsOf k reports =
          ((s.threads k).takeAll (eventsOf k schedule)).log.map recordReport := by
  induction schedule generalizing s with
  | nil => exact ⟨s.threads, [], rfl, fun k => ⟨rfl, rfl⟩⟩
  | cons event schedule ih =>
    obtain ⟨k, token⟩ := event
    obtain ⟨threads, reports, hrun, hthreads⟩ := ih (s.next (k, token))
    let emitted := ((s.threads k).takeToken token).log.map recordReport
    refine ⟨threads, (emitted.map fun report => (k, report)) ++ reports, ?_, fun j => ?_⟩
    · have hemitted : (emitted.map fun report => (k, report)).map Prod.snd = emitted := by
        rw [List.map_map]
        exact List.map_id emitted
      unfold run at hrun ⊢
      rw [List.foldlM_cons, step_eq_next, List.map_append, List.foldl_append, hemitted]
      exact hrun
    · obtain ⟨hval, hlog⟩ := hthreads j
      rw [hval, eventsOf_append, hlog, eventsOf_cons]
      by_cases hjk : k = j
      · subst hjk
        have hnext : (s.next (k, token)).threads k = ((s.threads k).takeToken token).val :=
          Function.update_self _ _ _
        rw [if_pos rfl, WriterThread.takeAll, hnext, eventsOf_map_same, List.map_append]
        exact ⟨rfl, rfl⟩
      · have hnext : (s.next (k, token)).threads j = s.threads j :=
          Function.update_of_ne (Ne.symm hjk) _ _
        rw [if_neg hjk, hnext, eventsOf_map_other hjk]
        exact ⟨rfl, rfl⟩

/-- The thread that reads these chunks reports on the target. -/
def ReportsOn (targetMap : Str → Option ℕ) (reads : List Str) (i : ℕ) : Prop :=
  ∃ data ∈ (WriterThread.run .construct reads).log, targetMap (recordReport data).1 = some i

/-- Threads that report on different targets do not notice each other. In whatever order
their tokens come, each thread ends as it does alone, and leaves each of its targets as if no
other thread had run; a target that no thread reports on stays as it is. -/
theorem threads_independent (ts : Targets R) (reads : ℕ → List Str)
    (schedule : List (ℕ × Str))
    (hschedule : ∀ k, eventsOf k schedule = (reads k).flatMap WriterThread.tokensOf)
    (hdifferent : ∀ j k i, ReportsOn ts.targetMap (reads j) i →
      ReportsOn ts.targetMap (reads k) i → j = k) :
    ∃ s, run ⟨fun _ => .construct, ts⟩ schedule = some s ∧
      (∀ k, s.threads k = (WriterThread.run .construct (reads k)).val) ∧
      (∀ k i, ReportsOn ts.targetMap (reads k) i → ∃ alone,
        (WriterThread.run .construct (reads k)).log.foldlM WriterThread.emitRecord ts =
          some alone ∧ s.targets.heap i = alone.heap i) ∧
      ∀ i, (∀ k, ¬ ReportsOn ts.targetMap (reads k) i) → s.targets.heap i = ts.heap i := by
  obtain ⟨threads, reports, hrun, hthreads⟩ := run_spec ⟨fun _ => .construct, ts⟩ schedule
  have hlog : ∀ k, eventsOf k reports =
      (WriterThread.run .construct (reads k)).log.map recordReport := by
    intro k
    rw [(hthreads k).2, hschedule, WriterThread.run_eq]
  have hon : ∀ s ∈ reports, ∀ i, reportPlace ts.targetMap s.2 = some i →
      ReportsOn ts.targetMap (reads s.1) i := by
    intro s hs i hi
    have hmem : s.2 ∈ eventsOf s.1 reports :=
      List.mem_map.mpr ⟨s, List.mem_filter.mpr ⟨hs, by simp⟩, rfl⟩
    rw [hlog] at hmem
    obtain ⟨data, hdata, hreport⟩ := List.mem_map.mp hmem
    refine ⟨data, hdata, ?_⟩
    rw [hreport]
    exact hi
  refine ⟨_, hrun, fun k => ?_, fun k i hk => ?_, fun i hnone => ?_⟩
  · rw [WriterThread.run_eq, ← hschedule]
    exact (hthreads k).1
  · refine ⟨_, by rw [emitRecords_eq_receive, receive_eq_touch], ?_⟩
    rw [← hlog]
    exact foldl_touch_owned _ _ (fun s hs hi => hdifferent _ _ i (hon s hs i hi) hk) ts.heap
  · have hevents : eventsAt (reportPlace ts.targetMap) i (reports.map Prod.snd) = [] := by
      refine List.filter_eq_nil_iff.mpr fun report hreport hi => ?_
      obtain ⟨s, hs, rfl⟩ := List.mem_map.mp hreport
      exact hnone s.1 (hon s hs i (of_decide_eq_true hi))
    exact (foldl_touch _ _ _ _ _).trans (by rw [hevents]; rfl)

end CameraThreads

noncomputable def registeredTargets : Targets ℝ :=
  { twoTargets with
    targetMap := fun key =>
      if key = "MT_A".toList then some 0 else if key = "MT_B".toList then some 1 else none }

def twoReads : ℕ → List Str
  | 0 => ["MT_A,(1,2),3,4,MT_X".toList]
  | 1 => ["MT_B,,,".toList, "MT_X".toList]
  | _ => []

def twoSchedule : List (ℕ × Str) :=
  [(0, "MT_A".toList), (1, "MT_B".toList), (0, "(1".toList), (0, "2)".toList), (1, []),
    (0, "3".toList), (1, "MT_X".toList), (0, "4".toList), (0, "MT_X".toList)]

theorem threads_independent_two :
    ∃ s, CameraThreads.run ⟨fun _ => .construct, registeredTargets⟩ twoSchedule = some s ∧
      (s.threads 1).previousPartial = "MT_X".toList ∧
      s.targets.heap 2 = registeredTargets.heap 2 := by
  have hkeys : ∀ k i, CameraThreads.ReportsOn registeredTargets.targetMap (twoReads k) i →
      k = i ∧ i < 2 := by
    rintro k i ⟨data, hdata, hi⟩
    have hkey := List.mem_map_of_mem (f := fun data => (recordReport data).1) hdata
    match k with
    | 0 =>
      have hlog : (WriterThread.run .construct (twoReads 0)).log.map
          (fun data => (recordReport data).1) = ["MT_A".toList] := by decide +kernel
      rw [hlog, List.mem_singleton] at hkey
      have hplace : some 0 = some i := by
        rw [← hi, hkey]
        simp [registeredTargets]
      cases hplace
      exact ⟨rfl, Nat.zero_lt_two⟩
    | 1 =>
      have hlog : (WriterThread.run .construct (twoReads 1)).log.map
          (fun data => (recordReport data).1) = ["MT_B".toList] := by decide +kernel
      rw [hlog, List.mem_singleton] at hkey
      have hplace : some 1 = some i := by
        rw [← hi, hkey]
        simp [registeredTargets]
      cases hplace
      exact ⟨rfl, Nat.one_lt_two⟩
    | k + 2 => exact absurd hdata List.not_mem_nil
  obtain ⟨s, hrun, hthreads, -, hothers⟩ := CameraThreads.threads_independent registeredTargets
    twoReads twoSchedule
    (fun k => match k with
      | 0 => by decide +kernel
      | 1 => by decide +kernel
      | k + 2 => by simp [eventsOf, twoSchedule, twoReads])
    (fun j k i hj hk => (hkeys j i hj).1.trans (hkeys k i hk).1.symm)
  refine ⟨s, hrun, ?_, hothers 2 fun k hk => absurd (hkeys k 2 hk).2 (lt_irrefl 2)⟩
  rw [hthreads]
  decide +kernel

section looks
variable {R : Type} [Field R] [LinearOrder R] [PiConstant R]

/-- `point_in_time_best_match` from a pass on, with its `percent_match` and `best`: where the
schedule has nothing, the loop makes its next pass, and else a report comes. -/
def interleavedLook : List (Option (Str × Str)) → List ℕ → R × Option ℕ → Targets R →
    Option (Option ℕ × Targets R)
  | [], pointers, l, ts =>
    let b := pointers.foldl BestMatch.look ⟨ts.heap, l.1, l.2⟩
    some (b.best, { ts with heap := b.heap })
  | some report :: schedule, pointers, l, ts => do
    let ts ← emitToTarget ts report.1 report.2
    interleavedLook schedule pointers l ts
  | none :: schedule, [], l, ts => interleavedLook schedule [] l ts
  | none :: schedule, pointer :: pointers, l, ts =>
    let b := BestMatch.look ⟨ts.heap, l.1, l.2⟩ pointer
    interleavedLook schedule pointers (b.percentMatch, b.best) { ts with heap := b.heap }

def interleavedLooks (targetStorage : List ℕ) : List (List (Option (Str × Str))) → Targets R →
    Option (List (Option ℕ) × Targets R)
  | [], ts => some ([], ts)
  | schedule :: rounds, ts => do
    let (best, ts) ← interleavedLook schedule targetStorage (0, none) ts
    let (bests, ts) ← interleavedLooks targetStorage rounds ts
    return (best :: bests, ts)

/-- What a pass makes of the target, and of `percent_match` and `best`. -/
def lookVisit (pointer : ℕ) (l : R × Option ℕ) (t : Target R) : (R × Option ℕ) × Target R :=
  let (acquired, t) := t.acquiredTarget
  (if acquired && t.fovMatch > l.1 then (t.fovMatch, some pointer) else l, t)

omit [Field R] [PiConstant R] in
theorem look_eq_visitAt (heap : ℕ → Target R) (l : R × Option ℕ) (pointer : ℕ) :
    BestMatch.look ⟨heap, l.1, l.2⟩ pointer =
      let x := visitAt lookVisit (l, heap) pointer
      ⟨x.2, x.1.1, x.1.2⟩ := by
  unfold BestMatch.look visitAt lookVisit
  dsimp only
  split_ifs <;> rfl

omit [Field R] [PiConstant R] in
theorem foldl_look_eq_visits (pointers : List ℕ) (heap : ℕ → Target R) (l : R × Option ℕ) :
    pointers.foldl BestMatch.look ⟨heap, l.1, l.2⟩ =
      let x := pointers.foldl (visitAt lookVisit) (l, heap)
      ⟨x.2, x.1.1, x.1.2⟩ := by
  induction pointers generalizing heap l with
  | nil => rfl
  | cons pointer pointers ih =>
    rw [List.foldl_cons, List.foldl_cons, look_eq_visitAt]
    exact ih _ _

theorem interleavedLook_eq (schedule : List (Option (Str × Str))) (pointers : List ℕ)
    (l : R × Option ℕ) (ts : Targets R) :
    interleavedLook schedule pointers l ts =
      let x := interleaved (reportPlace ts.targetMap) tested lookVisit schedule pointers
        (l, ts.heap)
      some (x.1.2, { ts with heap := x.2 }) := by
  fun_induction interleavedLook schedule pointers l ts with
  | case1 pointers l ts b =>
    rw [interleaved]
    simp only [b, foldl_look_eq_visits]
  | case2 report schedule pointers l ts ih =>
    rw [emitToTarget_eq_touch, interleaved]
    exact ih _
  | case3 schedule l ts ih =>
    rw [interleaved, ih]
  | case4 schedule pointer pointers l ts b ih =>
    rw [interleaved, ih]
    simp only [b, look_eq_visitAt]

theorem interleavedLooks_eq (targetStorage : List ℕ) (rounds : List (List (Option (Str × Str))))
    (ts : Targets R) :
    interleavedLooks targetStorage rounds ts =
      let x := interleavedRounds (reportPlace ts.targetMap) tested lookVisit targetStorage
        (0, none) rounds ts.heap
      some (x.1.map Prod.snd, { ts with heap := x.2 }) := by
  induction rounds generalizing ts with
  | nil => rfl
  | cons schedule rounds ih =>
    rw [interleavedLooks, interleavedLook_eq]
    simp only [Option.bind_eq_bind, Option.bind_some, ih]
    rfl

omit [PiConstant R] in
theorem pointInTimeBestMatch_eq_visits (targetStorage : List ℕ) (ts : Targets R) (hat : R × R) :
    let x := targetStorage.foldl (visitAt lookVisit) (((0 : R), none), ts.heap)
    let r := pointInTimeBestMatch targetStorage ts hat
    r.1 = x.1.2 ∧ r.2.2 = { ts with heap := x.2 } := by
  intro x r
  have hvisits := foldl_look_eq_visits targetStorage ts.heap ((0 : R), none)
  have hr : r = pointInTimeBestMatch targetStorage ts hat := rfl
  unfold pointInTimeBestMatch at hr
  dsimp only at hvisits hr
  rw [hvisits] at hr
  cases hbest : x.1.2 with
  | none =>
    rw [hbest] at hr
    exact ⟨by rw [hr], by rw [hr]⟩
  | some best =>
    rw [hbest] at hr
    exact ⟨by rw [hr], by rw [hr]⟩

variable {g : ArmParameters R}

/-- So many looks one after the other, as the waiting loops make them. -/
def ScanState.takeLooks (w : Surroundings) : ℕ → ScanState g →
    Option (List (Option ℕ) × ScanState g)
  | 0, s => some ([], s)
  | n + 1, s => do
    let (best, s) ← s.look w
    let (bests, s) ← takeLooks w n s
    return (best :: bests, s)

theorem look_eq_atomic (w : Surroundings) (s : ScanState g) :
    let x := w.targetStorage.foldl (visitAt lookVisit) (((0 : R), none),
      (w.camera s.looks).foldl (touch (reportPlace s.targets.targetMap) tested) s.targets.heap)
    ∃ s', s.look w = some (x.1.2, s') ∧ s'.targets = { s.targets with heap := x.2 } ∧
      s'.looks = s.looks + 1 := by
  intro x
  let received : Targets R := { s.targets with
    heap := (w.camera s.looks).foldl (touch (reportPlace s.targets.targetMap) tested)
      s.targets.heap }
  obtain ⟨hbest, htargets⟩ := pointInTimeBestMatch_eq_visits w.targetStorage received s.hat
  let r := pointInTimeBestMatch w.targetStorage received s.hat
  refine ⟨{ s with targets := r.2.2, hat := r.2.1, looks := s.looks + 1 }, ?_, htargets, rfl⟩
  unfold ScanState.look
  rw [receive_eq_touch, ← hbest]
  rfl

theorem takeLooks_eq (w : Surroundings) (batches : List (List (Str × Str))) (s : ScanState g)
    (hcamera : ∀ k, w.camera (s.looks + k) = batches.getD k []) :
    ∃ s', s.takeLooks w batches.length =
        some ((atomicRounds (reportPlace s.targets.targetMap) tested lookVisit w.targetStorage
          ((0 : R), none) batches s.targets.heap).1.map Prod.snd, s') ∧
      s'.targets = { s.targets with
        heap := (atomicRounds (reportPlace s.targets.targetMap) tested lookVisit w.targetStorage
          ((0 : R), none) batches s.targets.heap).2 } := by
  induction batches generalizing s with
  | nil => exact ⟨s, rfl, rfl⟩
  | cons batch batches ih =>
    have hbatch : w.camera s.looks = batch := hcamera 0
    obtain ⟨s₁, hlook, htargets, hlooks⟩ := look_eq_atomic w s
    rw [hbatch] at hlook htargets
    obtain ⟨s₂, hrun, htargets₂⟩ := ih s₁ (by
      intro k
      rw [hlooks, add_assoc, add_comm 1 k, hcamera]
      rfl)
    rw [htargets] at hrun htargets₂
    refine ⟨s₂, ?_, htargets₂⟩
    rw [List.length_cons, ScanState.takeLooks, hlook]
    simp only [Option.bind_eq_bind, Option.bind_some, hrun]
    rfl

/-- Looks that reports come in between cannot be told from looks at a moment each: the same
targets are found, when reports that come to a target behind its turn count to the next look.
The reports on a target keep their order, and none is lost or taken twice. -/
theorem looks_linearize (w : Surroundings) (hnodup : w.targetStorage.Nodup)
    (rounds : List (List (Option (Str × Str)))) (s : ScanState g) :
    ∃ (camera : ℕ → List (Str × Str)) (rest : List (Str × Str)) (bests : List (Option ℕ))
      (s' : ScanState g) (ts : Targets R),
      s.takeLooks { w with camera := camera } rounds.length = some (bests, s') ∧
      receive rest s'.targets = some ts ∧
      interleavedLooks w.targetStorage rounds s.targets = some (bests, ts) ∧
      ∀ i, eventsAt (reportPlace s.targets.targetMap) i
          ((List.range' s.looks rounds.length).flatMap camera ++ rest) =
        eventsAt (reportPlace s.targets.targetMap) i rounds.flatten.reduceOption := by
  let place := reportPlace s.targets.targetMap
  let b := batches place w.targetStorage [] rounds
  let camera := fun k => b.1.getD (k - s.looks) []
  have hcamera : ∀ k, camera (s.looks + k) = b.1.getD k [] := by
    intro k
    simp only [camera, Nat.add_sub_cancel_left]
  have hlength : b.1.length = rounds.length := batches_length place w.targetStorage [] rounds
  obtain ⟨s', hrun, htargets⟩ := takeLooks_eq { w with camera := camera } b.1 s hcamera
  rw [hlength] at hrun
  refine ⟨camera, b.2, _, s', _, hrun, receive_eq_touch b.2 s'.targets, ?_, fun i => ?_⟩
  · rw [interleavedLooks_eq, htargets]
    have hrounds := interleavedRounds_eq place tested lookVisit w.targetStorage ((0 : R), none)
      hnodup [] rounds s.targets.heap
    dsimp only at hrounds ⊢
    rw [List.foldl_nil] at hrounds
    rw [hrounds]
  · have hflat : (List.range' s.looks rounds.length).map camera = b.1 := by
      rw [← hlength]
      refine List.ext_getElem (by simp) fun k hk hk' => ?_
      rw [List.getElem_map, List.getElem_range', one_mul, hcamera]
      exact (List.getElem_eq_getD []).symm
    rw [List.flatMap_def, hflat, eventsAt_append]
    exact eventsAt_batches place w.targetStorage [] rounds i

end looks

theorem looks_linearize_late_report :
    let w : Surroundings := ⟨∅, [0, 1], fun _ => [], fun _ => []⟩
    let rounds := [[none, some ("MT_A".toList, "(1,2),3,4".toList), none], []]
    let s : ScanState (⟨1, 3, 3, 20000, 20000⟩ : ArmParameters ℝ) :=
      ⟨⟨.construct _ 0 0 2 0, Drives.allocate 2 ⟨[], []⟩ true, 0, 0⟩, registeredTargets,
        ⟨false, .none⟩, (0, 0), 0, []⟩
    ∃ (camera : ℕ → List (Str × Str)) (bests : List (Option ℕ)) (s' : ScanState _)
      (rest : List (Str × Str)) (ts : Targets ℝ),
      s.takeLooks { w with camera := camera } 2 = some (bests, s') ∧
      receive rest s'.targets = some ts ∧
      interleavedLooks [0, 1] rounds registeredTargets = some (bests, ts) := by
  intro w rounds s
  obtain ⟨camera, rest, bests, s', ts, hrun, hrest, hlooks, -⟩ :=
    looks_linearize w (by decide) rounds s
  exact ⟨camera, bests, s', rest, ts, hrun, hrest, hlooks⟩

end Arm2D
