import Arm2D.Library.Logged
import Arm2D.Target

/-! # The camera's reader

`UIInterfaceWriterThread`: it reads chunks of the camera's stream, cuts them at commas and
emits a record each time a header comes. -/
namespace Arm2D
open Library

structure WriterThread where
  previousPartial : Str
  foundHeader : Bool
  deriving DecidableEq, Repr

namespace WriterThread

def construct : WriterThread := ⟨[], false⟩

/-- On a shorter token `operator[]` finds the NUL behind its end first, which is no
letter and no underscore. -/
def isHeader : Str → Bool
  | c1 :: c2 :: c3 :: _ => isalpha c1 && isalpha c2 && c3 = '_'
  | _ => false

/-- `emit_record`; it does not touch the thread's own state. -/
def emitRecord {R : Type} [Field R] [PiConstant R] (ts : Targets R) (data : Str) :
    Option (Targets R) := do
  let key ← substr data 0 (find [','] data 0)
  let data ← substr data (posAfter (find [','] data 0)) none
  emitToTarget ts key data

/-- What `run` does with one token. The log has the strings given to `emit_record`. -/
def takeToken (w : WriterThread) (token : Str) : Logged Str WriterThread :=
  if isHeader token then ⟨⟨token, true⟩, if w.foundHeader then [w.previousPartial] else []⟩
  else if w.foundHeader then pure { w with previousPartial := w.previousPartial ++ ',' :: token }
  else pure w

/-- The loop of `run` over the tokens of a chunk. -/
def tokenLoop (w : WriterThread) (data : Str) : Logged Str WriterThread :=
  if _h : data = [] then pure w
  else
    let comma := find [','] data 0
    let token := match comma with
      | none => data
      | some i => data.take i
    let rest := if token = data then [] else data.drop (comma.getD 0 + 1)
    ⟨(tokenLoop (takeToken w token).val rest).val,
      (takeToken w token).log ++ (tokenLoop (takeToken w token).val rest).log⟩
termination_by data.length
decreasing_by
  all_goals
    have := List.length_pos_iff.mpr _h
    split_ifs
    · exact this
    · rw [List.length_drop]
      omega

/-- One turn of `run`, with what `wait_on_data` returned. -/
def runChunk (w : WriterThread) (data : Str) : Logged Str WriterThread :=
  let data := trimString data
  if data = [] then pure w
  else
    let data := if data.getLast? = some ',' then data.dropLast else data
    tokenLoop w data

/-- `run` on a list of reads. -/
def run : WriterThread → List Str → Logged Str WriterThread
  | w, [] => pure w
  | w, data :: reads =>
    ⟨(run (runChunk w data).val reads).val,
      (runChunk w data).log ++ (run (runChunk w data).val reads).log⟩

end WriterThread
end Arm2D
