import Arm2D.MotorDriver

/-! # Framing of the replies

`run_commands2` ends a reply where the port has nothing more to give. Over any run of
calls the strings that it passes on are the lines of the byte stream exactly when no
block of bytes that a call finds is cut inside a line. -/
namespace Arm2D
open Library

namespace MotorDriver
variable {R : Type}

/-- Calls of `run_commands2` on the port, one after the other, each on some driver. -/
def serve : List (MotorDriver R) → SerialPort → Logged Str SerialPort
  | [], port => pure port
  | md :: calls, port => do
    let r ← md.runCommands2 false port
    serve calls r.2

/-- The call waits for replies: there is a command, and not one that quits. -/
def Reads (md : MotorDriver R) : Prop :=
  ∃ nextCom ∈ md.shortCommandList.head?, (cStr nextCom).head? ≠ some 'q'

theorem reads_of_index {md : MotorDriver R} {n : ℤ} {item : Str} {rest : List Str}
    (h : md.shortCommandList = (decimal n ++ item) :: rest) : md.Reads := by
  refine ⟨decimal n ++ item, by rw [h]; rfl, fun hq => ?_⟩
  have hprefix : ∀ s : Str, (cStr s).head? = some 'q' → s.head? = some 'q' := by
    intro s hs
    cases s with
    | nil => exact hs
    | cons c s =>
      rw [cStr, List.takeWhile_cons] at hs
      split_ifs at hs with hc
      · exact hs
      · exact absurd hs (by simp)
  have hhead := hprefix _ hq
  rw [List.head?_append_of_ne_nil _ (decimal_ne_nil n)] at hhead
  exact notMem_decimal (by decide) (by decide) n (List.mem_of_head? hhead)

/-- At each call that waits for replies, the bytes that come without a gap after at most
ten tests in vain end with a carriage return, if there are any. -/
def RepliesWhole : List (MotorDriver R) → SerialPort → Prop
  | [], _ => True
  | md :: calls, port =>
    (md.Reads → Framed '\r' (firstBlock 10 port.polls)) ∧
      RepliesWhole calls (md.runCommands2 false port).val.2

theorem runCommands2_of_reads {md : MotorDriver R} (h : md.Reads) (port : SerialPort) :
    (md.runCommands2 false port).log = (poll '\r' 10 port.polls).1 ∧
      (md.runCommands2 false port).val.1 = (poll '\r' 10 port.polls).1.foldl
        handleCommandResponse (md.withCommands md.shortCommandList.tail) ∧
      (md.runCommands2 false port).val.2.polls = (poll '\r' 10 port.polls).2 := by
  obtain ⟨nextCom, hhead, hq⟩ := h
  obtain ⟨rest, hlist⟩ := List.head?_eq_some_iff.mp hhead
  rw [runCommands2, hlist]
  simp only [hq, if_false, Bool.false_eq_true]
  exact pollLoop_spec 10 _ _

theorem runCommands2_of_not_reads {md : MotorDriver R} (h : ¬ md.Reads) (port : SerialPort) :
    (md.runCommands2 false port).log = [] ∧
      (md.runCommands2 false port).val.1 = md.withCommands md.shortCommandList.tail ∧
      (md.runCommands2 false port).val.2.polls = port.polls := by
  rw [runCommands2]
  cases hlist : md.shortCommandList with
  | nil =>
    have hself : md.withCommands [] = md := by rw [← hlist, withCommands_self]
    exact ⟨rfl, hself.symm, rfl⟩
  | cons nextCom rest =>
    have hq : (cStr nextCom).head? = some 'q' := by
      by_contra hq
      exact h ⟨nextCom, by simp [hlist], hq⟩
    simp only [hq, if_true]
    exact ⟨rfl, rfl, rfl⟩

open Classical in
/-- The calls of a run that wait for replies, as the library's readers. -/
theorem serve_log (calls : List (MotorDriver R)) (port : SerialPort) :
    (serve calls port).log =
      pollRun '\r' ((calls.filter (Reads ·)).map fun _ => 10) port.polls := by
  induction calls generalizing port with
  | nil => rfl
  | cons md calls ih =>
    rw [serve, Logged.bind_log, ih]
    by_cases h : md.Reads
    · obtain ⟨hlog, -, hport⟩ := runCommands2_of_reads h port
      rw [List.filter_cons_of_pos (by simpa using h), List.map_cons, pollRun, hlog, hport]
    · obtain ⟨hlog, -, hport⟩ := runCommands2_of_not_reads h port
      rw [List.filter_cons_of_neg (by simpa using h), hlog, hport, List.nil_append]

open Classical in
theorem repliesWhole_iff (calls : List (MotorDriver R)) (port : SerialPort) :
    RepliesWhole calls port ↔
      AllFramed '\r' ((calls.filter (Reads ·)).map fun _ => 10) port.polls := by
  induction calls generalizing port with
  | nil => rfl
  | cons md calls ih =>
    rw [RepliesWhole, ih]
    by_cases h : md.Reads
    · obtain ⟨-, -, hport⟩ := runCommands2_of_reads h port
      rw [List.filter_cons_of_pos (by simpa using h), List.map_cons, AllFramed, hport]
      simp [h]
    · obtain ⟨-, -, hport⟩ := runCommands2_of_not_reads h port
      rw [List.filter_cons_of_neg (by simpa using h), hport]
      simp [h]

theorem serve_sublist_iff (calls : List (MotorDriver R)) (port : SerialPort) :
    (serve calls port).log.Sublist (frames '\r' (symbols port.polls)) ↔
      RepliesWhole calls port := by
  rw [serve_log, repliesWhole_iff]
  exact pollRun_sublist_iff '\r' _ _

/-- The driver at each call that `run_lines` makes. -/
def lineCalls (md : MotorDriver R) (port : SerialPort) : List (MotorDriver R) :=
  if _h : md.shortCommandList = [] then []
  else
    let r := md.runCommands2 false port
    md :: lineCalls r.val.1 r.val.2
termination_by md.shortCommandList.length
decreasing_by
  rw [runCommands2_shortCommandList, List.length_tail]
  exact Nat.sub_lt (List.length_pos_iff.mpr _h) Nat.one_pos

theorem runLines_log (md : MotorDriver R) (port : SerialPort) :
    (md.runLines false port).log = (serve (md.lineCalls port) port).log := by
  induction md, port using lineCalls.induct with
  | case1 md port h =>
    rw [runLines, lineCalls, dif_pos h, dif_pos h]
    rfl
  | case2 md port h r ih =>
    rw [runLines, lineCalls, dif_neg h, dif_neg h, serve, Logged.bind_log]
    exact congrArg (r.log ++ ·) ih

theorem runCommands2_driver (md : MotorDriver R) (port : SerialPort) :
    (md.runCommands2 false port).val.1 = (md.runCommands2 false port).log.foldl
      handleCommandResponse (md.withCommands md.shortCommandList.tail) := by
  by_cases h : md.Reads
  · obtain ⟨hlog, hmd, -⟩ := runCommands2_of_reads h port
    rw [hmd, hlog]
  · obtain ⟨hlog, hmd, -⟩ := runCommands2_of_not_reads h port
    rw [hmd, hlog]
    rfl

theorem runLines_driver (md : MotorDriver R) (port : SerialPort) :
    (md.runLines false port).val.1 = (md.runLines false port).log.foldl
      handleCommandResponse (md.withCommands []) := by
  induction md, port using lineCalls.induct with
  | case1 md port h =>
    rw [runLines, dif_pos h, ← h, withCommands_self]
    rfl
  | case2 md port h r ih =>
    have hdriver : r.val.1 = _ := runCommands2_driver md port
    rw [foldl_withCommands] at hdriver
    rw [runLines, dif_neg h]
    change (runLines false r.val.1 r.val.2).val.1 =
      (r.log ++ (runLines false r.val.1 r.val.2).log).foldl _ _
    rw [ih, List.foldl_append, foldl_withCommands r.log, hdriver, withCommands_withCommands]

/-- The text after '=' of the last reply; without a reply the text that was kept. -/
def reportedAfter (kept : Str) (responses : List Str) : Str :=
  match responses.getLast? with
  | none => kept
  | some response => trimString (splitString response '=').2

theorem foldl_gearRatio (responses : List Str) (md : MotorDriver R) :
    (responses.foldl handleCommandResponse md).gearRatio = md.gearRatio := by
  induction responses generalizing md with
  | nil => rfl
  | cons response responses ih => exact ih (md.handleCommandResponse response)

theorem foldl_reportedSteps (responses : List Str) (md : MotorDriver R)
    (h : md.checkingPosition = true) :
    (responses.foldl handleCommandResponse md).reportedSteps =
        reportedAfter md.reportedSteps responses ∧
      (responses.foldl handleCommandResponse md).checkingPosition = true := by
  induction responses using List.reverseRecOn with
  | nil => exact ⟨rfl, h⟩
  | append_singleton front response ih =>
    obtain ⟨-, hcheck⟩ := ih
    rw [List.foldl_append, List.foldl_cons, List.foldl_nil]
    refine ⟨?_, hcheck⟩
    rw [handleCommandResponse, reportedAfter, List.getLast?_concat]
    exact if_pos hcheck

/-- The driver that `current_rotation` hands to `run_lines`. -/
def askedForRotation (md : MotorDriver R) : MotorDriver R :=
  ({ md with checkingPosition := true } : MotorDriver R).addItems
    (md.parameterAt "rotation_query".toList)

theorem currentRotation_log [Field R] (md : MotorDriver R) (port : SerialPort) :
    (md.currentRotation false port).log =
      (serve (md.askedForRotation.lineCalls port) port).log := by
  simp only [currentRotation, Logged.bind_log, Logged.pure_log, List.append_nil]
  exact runLines_log _ _

theorem currentRotation_val [Field R] (md : MotorDriver R) (port : SerialPort) :
    (md.currentRotation false port).val.1 =
      (atof (reportedAfter md.reportedSteps (md.currentRotation false port).log) : R) /
        md.gearRatio := by
  have hdriver := runLines_driver md.askedForRotation port
  rw [runLines_log] at hdriver
  obtain ⟨hsteps, -⟩ := foldl_reportedSteps
    (serve (md.askedForRotation.lineCalls port) port).log (md.askedForRotation.withCommands []) rfl
  have hval : (md.currentRotation false port).val.1 =
      (atof (runLines false md.askedForRotation port).val.1.reportedSteps : R) /
        (runLines false md.askedForRotation port).val.1.gearRatio := rfl
  rw [hval, hdriver, hsteps, foldl_gearRatio, currentRotation_log]
  rfl

/-- What `run_commands2` passes on are lines of the stream, in order and none twice,
exactly when each block of bytes that a call finds ends with a line. Then the position
that `current_rotation` computes is that of a complete line, or the one before. -/
theorem replies_framed_iff [Field R] :
    (∀ (calls : List (MotorDriver R)) (port : SerialPort),
      (serve calls port).log.Sublist (frames '\r' (symbols port.polls)) ↔
        RepliesWhole calls port) ∧
    ∀ (md : MotorDriver R) (port : SerialPort),
      RepliesWhole (md.askedForRotation.lineCalls port) port →
        (md.currentRotation false port).val.1 = (atof md.reportedSteps : R) / md.gearRatio ∨
        ∃ line ∈ frames '\r' (symbols port.polls), (md.currentRotation false port).val.1 =
          (atof (trimString (splitString line '=').2) : R) / md.gearRatio := by
  refine ⟨serve_sublist_iff, fun md port h => ?_⟩
  have hsub := (serve_sublist_iff _ _).mpr h
  rw [← currentRotation_log] at hsub
  rw [currentRotation_val, reportedAfter]
  cases hlast : (md.currentRotation false port).log.getLast? with
  | none => exact Or.inl rfl
  | some line =>
    exact Or.inr ⟨line, hsub.subset (List.mem_of_getLast? hlast), rfl⟩

/-- The reply `1IP=12500` with a pause after its first two digits: the query of the
rotation takes the position 12 from it. -/
theorem reply_cut_by_pause :
    let md : MotorDriver ℚ := (construct 1).addParameter "rotation_query".toList "IP".toList
    let port : SerialPort :=
      ⟨"1IP=12".toList.map some ++ [none, none] ++ "500\r".toList.map some, []⟩
    frames '\r' (symbols port.polls) = ["1IP=12500\r".toList] ∧
      (md.currentRotation false port).log = ["1IP=12".toList] ∧
      (md.currentRotation false port).val.1 = 12 ∧
      ¬ (serve (md.askedForRotation.lineCalls port) port).log.Sublist
        (frames '\r' (symbols port.polls)) := by
  intro md port
  have hframes : frames '\r' (symbols port.polls) = ["1IP=12500\r".toList] := by decide
  have hcommands : md.askedForRotation.shortCommandList = ["1IP".toList] := by
    have hitems : toItems "IP".toList ';' = ["IP".toList] := by
      rw [toItems, dif_neg (by decide), toItems, dif_pos (by decide)]
      decide
    change [] ++ (toItems "IP".toList ';').map _ = _
    rw [hitems]
    decide
  have hreads : md.askedForRotation.Reads := by
    rw [Reads, hcommands]
    exact ⟨"1IP".toList, rfl, by decide⟩
  have hpoll : (poll '\r' 10 port.polls).1 = ["1IP=12".toList] := by
    rw [poll_of_ne_nil '\r' (by decide)]
    have hread : readUntil '\r' port.polls =
        ("1IP=12".toList, none :: "500\r".toList.map some) := by decide
    rw [hread, poll_zero_none]
  have hlog : (md.currentRotation false port).log = ["1IP=12".toList] := by
    rw [currentRotation_log, ← runLines_log, runLines_singleton false port hcommands,
      (runCommands2_of_reads hreads port).1, hpoll]
  refine ⟨hframes, hlog, ?_, ?_⟩
  · have hvalue : atof (reportedAfter md.reportedSteps ["1IP=12".toList]) = 12 := by
      decide +kernel
    rw [currentRotation_val, hlog, hvalue]
    norm_num [md, construct, addParameter]
  · rw [← currentRotation_log, hlog, hframes]
    decide

end MotorDriver
end Arm2D
