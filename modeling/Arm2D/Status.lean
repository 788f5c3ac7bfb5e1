import Arm2D.Drives
import Arm2D.Library.Runs
import Arm2D.Replies

/-! # Who reported stopped

`check_status` looks at the last reply that any call left in `_parameter`. The schedule
of the port is one of whole lines here, each with the drive that sent it. -/
namespace Arm2D
open Library

/-- A reply as a drive sends it: its number, a text, a carriage return. -/
structure ReplyLine where
  drive : ℕ
  body : Str
  body_cr : '\r' ∉ body

namespace ReplyLine

def text (l : ReplyLine) : Str := decimal l.drive ++ l.body ++ ['\r']

/-- The text after '=' trims to 0001. -/
def SaysStopped (l : ReplyLine) : Prop :=
  '=' ∈ l.text ∧ trimString (l.text.dropWhile (· ≠ '=')).tail = "0001".toList

theorem text_frame (l : ReplyLine) : ∃ body, l.text = body ++ ['\r'] ∧ '\r' ∉ body := by
  refine ⟨decimal l.drive ++ l.body, rfl, ?_⟩
  rw [List.mem_append, not_or]
  exact ⟨notMem_decimal (by decide) (by decide) _, l.body_cr⟩

end ReplyLine

/-- The lines that one call of `run_commands2` reads, and the schedule after it. -/
def linesRead (arrivals : List (Option ReplyLine)) : List ReplyLine :=
  (pollWhole 10 arrivals).1

def arrivalsAfter (arrivals : List (Option ReplyLine)) : List (Option ReplyLine) :=
  (pollWhole 10 arrivals).2

variable {R : Type}

namespace MotorDriver

/-- `check_status` on a driver with an empty queue is one call of `run_commands2`. -/
theorem checkStatus_whole (md : MotorDriver R) (port : SerialPort) (checkNoisy : Bool)
    (hidle : md.shortCommandList = []) {arrivals : List (Option ReplyLine)}
    (hport : port.polls = expand ReplyLine.text arrivals) :
    let r := (md.checkStatus false port checkNoisy).val
    r.2.1 = ((linesRead arrivals).map ReplyLine.text).foldl handleCommandResponse
        { md with checkingStatus := checkNoisy } ∧
      r.1 = readsStopped r.2.1.parameter ∧
      r.2.2.polls = expand ReplyLine.text (arrivalsAfter arrivals) := by
  let asked : MotorDriver R := ({ md with checkingStatus := checkNoisy } : MotorDriver R).addLine
    (md.indexStr ++ "SC".toList)
  have hcommands : asked.shortCommandList = [md.indexStr ++ "SC".toList] := by
    change md.shortCommandList ++ _ = _
    rw [hidle, List.nil_append]
  have hreads : asked.Reads := reads_of_index hcommands
  have hasked : asked.withCommands asked.shortCommandList.tail =
      { md with checkingStatus := checkNoisy } := by
    rw [hcommands, List.tail_cons, ← hidle]
    rfl
  have hpoll := poll_expand '\r' ReplyLine.text ReplyLine.text_frame 10 arrivals
  rw [← hport] at hpoll
  obtain ⟨-, hmd, hpolls⟩ := runCommands2_of_reads hreads port
  rw [hpoll, ← runLines_singleton false port hcommands] at hmd hpolls
  rw [hasked] at hmd
  exact ⟨hmd, rfl, hpolls⟩

theorem foldl_kept (responses : List Str) (md : MotorDriver R) :
    (responses.foldl handleCommandResponse md).index = md.index ∧
      (responses.foldl handleCommandResponse md).shortCommandList = md.shortCommandList ∧
      (responses.foldl handleCommandResponse md).parameter =
        responses.getLast?.getD md.parameter := by
  induction responses using List.reverseRecOn with
  | nil => exact ⟨rfl, rfl, rfl⟩
  | append_singleton front response ih =>
    obtain ⟨hindex, hlist, -⟩ := ih
    rw [List.foldl_append, List.foldl_cons, List.foldl_nil, List.getLast?_concat]
    exact ⟨hindex, hlist, rfl⟩

end MotorDriver

/-- The drives on a real port, between two calls: no commands are queued, each driver has
the number of its slot, and the port gives whole lines. -/
structure Station (R : Type) where
  drives : Drives R
  arrivals : List (Option ReplyLine)
  real : drives.useSimulations = false
  idle : ∀ i, ∀ md ∈ drives.motorDriverArray i, md.shortCommandList = []
  wired : ∀ i, ∀ md ∈ drives.motorDriverArray i, md.index = i + 1
  polls_eq : drives.serialPort.polls = expand ReplyLine.text arrivals

namespace Station

/-- The lines that a call of `check_status` on slot `i` reads. -/
def linesFor (s : Station R) (i : ℕ) : List ReplyLine :=
  if (s.drives.motorDriverArray i).isSome then linesRead s.arrivals else []

def arrivalsFor (s : Station R) (i : ℕ) : List (Option ReplyLine) :=
  if (s.drives.motorDriverArray i).isSome then arrivalsAfter s.arrivals else s.arrivals

theorem checkStatus_some (s : Station R) {i : ℕ} {md : MotorDriver R}
    (h : s.drives.motorDriverArray i = some md) (checkNoisy : Bool) :
    ∃ port, (s.drives.checkStatus i checkNoisy).2 = s.drives.put i
        (((s.linesFor i).map ReplyLine.text).foldl MotorDriver.handleCommandResponse
          { md with checkingStatus := checkNoisy }, port) ∧
      port.polls = expand ReplyLine.text (s.arrivalsFor i) ∧
      (s.drives.checkStatus i checkNoisy).1 = MotorDriver.readsStopped
        (((s.linesFor i).map ReplyLine.text).getLast?.getD md.parameter) := by
  obtain ⟨hmd, hstatus, hport⟩ := md.checkStatus_whole s.drives.serialPort checkNoisy
    (s.idle i md h) s.polls_eq
  have hcheck : s.drives.checkStatus i checkNoisy =
      ((md.checkStatus false s.drives.serialPort checkNoisy).val.1,
        s.drives.put i (md.checkStatus false s.drives.serialPort checkNoisy).val.2) := by
    unfold Drives.checkStatus
    rw [h, s.real]
  have hlines : s.linesFor i = linesRead s.arrivals := by rw [linesFor, h]; rfl
  have harrivals : s.arrivalsFor i = arrivalsAfter s.arrivals := by rw [arrivalsFor, h]; rfl
  rw [hcheck, hlines, harrivals]
  refine ⟨_, ?_, hport, ?_⟩
  · rw [← hmd]
  · rw [hstatus, hmd, (MotorDriver.foldl_kept _ _).2.2]

theorem checkStatus_none (s : Station R) {i : ℕ} (h : s.drives.motorDriverArray i = none)
    (checkNoisy : Bool) : s.drives.checkStatus i checkNoisy = (false, s.drives) := by
  unfold Drives.checkStatus
  rw [h]

theorem checkStatus_slot (s : Station R) (call : ℕ × Bool) {i : ℕ} {md' : MotorDriver R}
    (h : md' ∈ (s.drives.checkStatus call.1 call.2).2.motorDriverArray i) :
    ∃ md ∈ s.drives.motorDriverArray i,
      md'.index = md.index ∧ md'.shortCommandList = md.shortCommandList := by
  cases hmd : s.drives.motorDriverArray call.1 with
  | none =>
    rw [s.checkStatus_none hmd] at h
    exact ⟨md', h, rfl, rfl⟩
  | some md =>
    obtain ⟨port, hput, -, -⟩ := s.checkStatus_some hmd call.2
    rw [hput] at h
    by_cases hi : i = call.1
    · subst hi
      rw [Drives.put_same, Option.mem_some_iff] at h
      subst h
      obtain ⟨hindex, hlist, -⟩ := MotorDriver.foldl_kept
        ((s.linesFor call.1).map ReplyLine.text) { md with checkingStatus := call.2 }
      exact ⟨md, hmd, hindex, hlist⟩
    · rw [Drives.put_other _ hi] at h
      exact ⟨md', h, rfl, rfl⟩

/-- A call of `check_status` on a slot, as a step of a run. -/
def checkStep (s : Station R) (call : ℕ × Bool) : Station R where
  drives := (s.drives.checkStatus call.1 call.2).2
  arrivals := s.arrivalsFor call.1
  real := by
    cases hmd : s.drives.motorDriverArray call.1 with
    | none => rw [s.checkStatus_none hmd, s.real]
    | some md =>
      obtain ⟨port, hput, -, -⟩ := s.checkStatus_some hmd call.2
      rw [hput]
      exact s.real
  idle i md' h := by
    obtain ⟨md, hmd, -, hlist⟩ := s.checkStatus_slot call h
    rw [hlist, s.idle i md hmd]
  wired i md' h := by
    obtain ⟨md, hmd, hindex, -⟩ := s.checkStatus_slot call h
    rw [hindex, s.wired i md hmd]
  polls_eq := by
    cases hmd : s.drives.motorDriverArray call.1 with
    | none =>
      rw [s.checkStatus_none hmd, s.polls_eq, arrivalsFor, hmd]
      rfl
    | some md =>
      obtain ⟨port, hput, hport, -⟩ := s.checkStatus_some hmd call.2
      rw [hput]
      exact hport

/-- The call returns true only on a line that it read itself, sent by the drive that it
asked, and saying stopped. -/
def Truthful (s : Station R) (call : ℕ × Bool) : Prop :=
  (s.drives.checkStatus call.1 call.2).1 = true →
    ∃ l ∈ s.linesFor call.1, l.drive = call.1 + 1 ∧ l.SaysStopped

/-- What keeps a call from being misled: without a reply, the text that the driver kept
does not read 0001; with replies, the last one does not, or the drive itself said so. -/
def NotMisled (s : Station R) (call : ℕ × Bool) : Prop :=
  ∀ md ∈ s.drives.motorDriverArray call.1,
    match (s.linesFor call.1).getLast? with
    | none => MotorDriver.readsStopped md.parameter = false
    | some last => MotorDriver.readsStopped last.text = true →
      ∃ l ∈ s.linesFor call.1, l.drive = call.1 + 1 ∧ l.SaysStopped

theorem truthful_iff (s : Station R) (call : ℕ × Bool) : s.Truthful call ↔ s.NotMisled call := by
  unfold Truthful NotMisled
  cases hmd : s.drives.motorDriverArray call.1 with
  | none => simp [s.checkStatus_none hmd]
  | some md =>
    obtain ⟨-, -, -, hstatus⟩ := s.checkStatus_some hmd call.2
    rw [hstatus]
    simp only [Option.mem_some_iff, forall_eq', List.getLast?_map]
    cases hlast : (s.linesFor call.1).getLast? with
    | none =>
      rw [List.getLast?_eq_none_iff.mp hlast]
      simp
    | some last => rfl

def linesDuring : Station R → List (ℕ × Bool) → List ReplyLine
  | _, [] => []
  | s, call :: calls => s.linesFor call.1 ++ linesDuring (s.checkStep call) calls

theorem linesDuring_append (s : Station R) (calls others : List (ℕ × Bool)) :
    s.linesDuring (calls ++ others) =
      s.linesDuring calls ++ (calls.foldl checkStep s).linesDuring others := by
  induction calls generalizing s with
  | nil => rfl
  | cons call calls ih =>
    rw [List.cons_append, linesDuring, linesDuring, ih, List.append_assoc, List.foldl_cons]

/-- The calls of `n` passes of the waiting loop. -/
def waitCalls (n : ℕ) : List (ℕ × Bool) := (List.replicate n [(0, true), (1, true)]).flatten

theorem waitCalls_succ' (n : ℕ) : waitCalls (n + 1) = waitCalls n ++ [(0, true), (1, true)] := by
  rw [waitCalls, List.replicate_succ', List.flatten_concat]
  rfl

theorem slot_isSome_foldl {s : Station R} {i : ℕ}
    (h : (s.drives.motorDriverArray i).isSome) (calls : List (ℕ × Bool)) :
    (((calls.foldl checkStep s).drives.motorDriverArray i)).isSome := by
  induction calls generalizing s with
  | nil => exact h
  | cons call calls ih =>
    refine ih ?_
    change ((s.drives.checkStatus call.1 call.2).2.motorDriverArray i).isSome
    cases hmd : s.drives.motorDriverArray call.1 with
    | none => rwa [s.checkStatus_none hmd]
    | some md =>
      obtain ⟨port, hput, -, -⟩ := s.checkStatus_some hmd call.2
      rw [hput]
      by_cases hi : i = call.1
      · rw [hi, Drives.put_same]
        rfl
      · rwa [Drives.put_other _ hi]

theorem checkStatus_of_not_inMotion {s : Station R} {i : ℕ}
    (h : (s.drives.motorDriverArray i).isSome)
    (hstop : (s.drives.checkMotionStatus (i + 1)).1 = false) :
    (s.drives.checkStatus i true).1 = true := by
  have hmotion : (s.drives.checkMotionStatus (i + 1)).1 =
      ((s.drives.motorDriverArray i).isSome && !(s.drives.checkStatus i true).1) := rfl
  rw [hmotion, h, Bool.true_and, Bool.not_eq_false'] at hstop
  exact hstop

/-- A loop that ends made some passes and a last one that found neither motor moving. -/
theorem waitLoop_passes {fuel : ℕ} {s : Station R} {d : Drives R}
    (h : s.drives.waitLoop fuel = some d) :
    ∃ n, let last := (waitCalls n).foldl checkStep s
      d = ((waitCalls (n + 1)).foldl checkStep s).drives ∧
        (last.drives.checkMotionStatus 1).1 = false ∧
        ((last.checkStep (0, true)).drives.checkMotionStatus 2).1 = false := by
  induction fuel generalizing s with
  | zero => exact absurd h (by simp [Drives.waitLoop])
  | succ fuel ih =>
    let s₁ := s.checkStep (0, true)
    let s₂ := s₁.checkStep (1, true)
    have hpass : s.drives.waitLoop (fuel + 1) =
        if (s.drives.checkMotionStatus 1).1 || (s₁.drives.checkMotionStatus 2).1 then
          s₂.drives.waitLoop fuel
        else some s₂.drives := rfl
    rw [hpass] at h
    split_ifs at h with hmoving
    · obtain ⟨n, hd, h₁, h₂⟩ := ih h
      exact ⟨n + 1, hd, h₁, h₂⟩
    · rw [Bool.or_eq_true, not_or, Bool.not_eq_true, Bool.not_eq_true] at hmoving
      exact ⟨0, (Option.some.inj h).symm, hmoving.1, hmoving.2⟩

/-- In a run of calls each returns true only on its own drive's fresh word exactly when
none is misled. A waiting loop whose calls are not misled ends only after each of the two
drives said during the wait that it stopped. -/
theorem checkStatus_truthful_iff (s : Station R) (calls : List (ℕ × Bool)) :
    (EachStep checkStep Truthful s calls ↔ EachStep checkStep NotMisled s calls) ∧
    ∀ fuel d, s.drives.waitLoop fuel = some d → ∃ n,
      d = ((waitCalls (n + 1)).foldl checkStep s).drives ∧
      (EachStep checkStep NotMisled s (waitCalls (n + 1)) →
        ∀ i < 2, (s.drives.motorDriverArray i).isSome →
          ∃ l ∈ s.linesDuring (waitCalls (n + 1)), l.drive = i + 1 ∧ l.SaysStopped) := by
  constructor
  · exact forall_congr' fun pre => forall_congr' fun call =>
      imp_congr_right fun _ => truthful_iff _ call
  intro fuel d hwait
  obtain ⟨n, hd, h₁, h₂⟩ := waitLoop_passes hwait
  refine ⟨n, hd, fun hrun i hi hslot => ?_⟩
  rw [waitCalls_succ'] at hrun ⊢
  rw [linesDuring_append]
  have hfirst := hrun (waitCalls n) (0, true) ⟨[(1, true)], by rw [List.append_assoc]; rfl⟩
  have hsecond := hrun (waitCalls n ++ [(0, true)]) (1, true) (by rw [List.append_assoc]; rfl)
  rw [← truthful_iff] at hfirst hsecond
  rw [List.foldl_append] at hsecond
  have hlast := slot_isSome_foldl hslot (waitCalls n)
  interval_cases i
  · obtain ⟨l, hl, hsays⟩ := hfirst (checkStatus_of_not_inMotion hlast h₁)
    exact ⟨l, List.mem_append_right _ (List.mem_append_left _ hl), hsays⟩
  · have hlast' := slot_isSome_foldl hlast [(0, true)]
    obtain ⟨l, hl, hsays⟩ := hsecond (checkStatus_of_not_inMotion hlast' h₂)
    refine ⟨l, List.mem_append_right _ (List.mem_append_right _ ?_), hsays⟩
    exact List.mem_append_left _ hl

def initial [One R] (motorCount : ℕ) (arrivals : List (Option ReplyLine)) : Station R where
  drives := Drives.allocate motorCount ⟨expand ReplyLine.text arrivals, []⟩ false
  arrivals := arrivals
  real := rfl
  idle i md h := by
    rw [Drives.eq_construct_of_mem_allocate h]
    rfl
  wired i md h := by
    rw [Drives.eq_construct_of_mem_allocate h]
    rfl
  polls_eq := rfl

theorem checkStatus_hears_other_drive :
    let line : ReplyLine := ⟨2, "SC=0001".toList, by decide⟩
    let s : Station ℚ := initial 2 [some line]
    s.linesFor 0 = [line] ∧ (s.drives.checkStatus 0 true).1 = true ∧
      ¬ EachStep checkStep Truthful s [(0, true)] := by
  intro line s
  have hlines : s.linesFor 0 = [line] := rfl
  have hslot : s.drives.motorDriverArray 0 = some (MotorDriver.construct 1) := rfl
  obtain ⟨-, -, -, hstatus⟩ := s.checkStatus_some hslot true
  have htrue : (s.drives.checkStatus 0 true).1 = true := by
    rw [hstatus, hlines]
    decide
  refine ⟨hlines, htrue, fun h => ?_⟩
  obtain ⟨l, hl, hdrive, -⟩ := h [] (0, true) (List.prefix_rfl) htrue
  have hl' : l = line := List.mem_singleton.mp hl
  rw [hl'] at hdrive
  exact absurd hdrive (by decide)

end Station
end Arm2D
