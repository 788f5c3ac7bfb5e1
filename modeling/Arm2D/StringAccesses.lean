import Arm2D.CameraStream
import Arm2D.Library.Words

/-! # Where the camera's strings are read

The reader of the camera once more, from `run` down to `data_test`, with the positions at
which it reads its strings. `operator[]` is defined up to the length of the string, and
`substr` throws behind it. -/
namespace Arm2D
open Library

/-- A position in a string, and the length of the string. -/
structure Access where
  position : ℕ
  length : ℕ
  deriving DecidableEq, Repr

def Access.Inside (a : Access) : Prop := a.position ≤ a.length

/-- `s[i]`; the character behind the last one is NUL. -/
def charAt (s : Str) (i : ℕ) : Logged Access Char := ⟨s.getD i '\x00', [⟨i, s.length⟩]⟩

def substrAt (s : Str) (pos : ℕ) (n : Option ℕ) : Logged Access (Option Str) :=
  ⟨substr s pos n, [⟨pos, s.length⟩]⟩

@[simp] theorem charAt_val (s : Str) (i : ℕ) : (charAt s i).val = s.getD i '\x00' := rfl

@[simp] theorem substrAt_val (s : Str) (pos : ℕ) (n : Option ℕ) :
    (substrAt s pos n).val = substr s pos n := rfl

@[simp] theorem charAt_all (s : Str) (i : ℕ) : (charAt s i).All Access.Inside ↔ i ≤ s.length := by
  simp [charAt, Logged.All, Access.Inside]

@[simp] theorem substrAt_all (s : Str) (pos : ℕ) (n : Option ℕ) :
    (substrAt s pos n).All Access.Inside ↔ pos ≤ s.length := by
  simp [substrAt, Logged.All, Access.Inside]

def isHeaderLogged (token : Str) : Logged Access Bool := do
  let c1 ← charAt token 0
  let c2 ← charAt token 1
  let c3 ← charAt token 2
  return isalpha c1 && isalpha c2 && c3 = '_'

/-- The scan of `data_test`: `tmp` has come to the position `p` of a text of this length. -/
def scanLogged (length : ℕ) : ℕ → Str → Logged Access Bool
  | p, [] => do
    Logged.tell ⟨p, length⟩
    return false
  | p, c :: s => do
    Logged.tell ⟨p, length⟩
    if c = ',' then
      Logged.tell ⟨p + 1, length⟩
      if s.head? = some ',' then return true else scanLogged length (p + 1) s
    else scanLogged length (p + 1) s

variable {R : Type} [Field R] [PiConstant R]

def Target.dataTestLogged (t : Target R) (data : Str) : Logged Access (Option (Target R)) := do
  let empty ← scanLogged (cStr data).length 0 (cStr data)
  if empty then return some { t with targetPresent := false }
  else
    (substrAt data (posAfter (find ['('] data 0)) (posBefore (find [')'] data 0))).bindSome
      fun pair =>
    (substrAt pair 0 (find [','] pair 0)).bindSome fun xstr =>
    (substrAt pair (posAfter (find [','] pair 0)) none).bindSome fun ystr =>
    (substrAt data (posAfter (find [','] data (posAfter (find [','] data 0)))) none).bindSome
      fun rest =>
    let (rotation, percent) := splitString rest ','
    pure (some (t.measure (atof xstr : R) (atof ystr : R) (atof rotation : R) (atof percent : R)))

def emitToTargetLogged (ts : Targets R) (key data : Str) : Logged Access (Option (Targets R)) :=
  match ts.targetMap key with
  | none => pure (some ts)
  | some i => ((ts.heap i).dataTestLogged data).bindSome fun t =>
    pure (some { ts with heap := Function.update ts.heap i t })

namespace WriterThread

def emitRecordLogged (ts : Targets R) (data : Str) : Logged Access (Option (Targets R)) :=
  (substrAt data 0 (find [','] data 0)).bindSome fun key =>
  (substrAt data (posAfter (find [','] data 0)) none).bindSome fun data =>
  emitToTargetLogged ts key data

def takeTokenLogged (w : WriterThread) (ts : Targets R) (token : Str) :
    Logged Access (Option (WriterThread × Targets R)) := do
  let header ← isHeaderLogged token
  if header then
    if w.foundHeader then
      (emitRecordLogged ts w.previousPartial).bindSome fun ts => pure (some (⟨token, true⟩, ts))
    else return some (⟨token, true⟩, ts)
  else if w.foundHeader then
    return some ({ w with previousPartial := w.previousPartial ++ ',' :: token }, ts)
  else return some (w, ts)

def tokenLoopLogged (w : WriterThread) (ts : Targets R) (data : Str) :
    Logged Access (Option (WriterThread × Targets R)) :=
  if _h : data = [] then pure (some (w, ts))
  else
    let comma := find [','] data 0
    let token := match comma with
      | none => data
      | some i => data.take i
    let rest := if token = data then [] else data.drop (comma.getD 0 + 1)
    do
      Logged.tell ⟨0, data.length⟩
      if token ≠ data then Logged.tell ⟨posAfter comma, data.length⟩
      (takeTokenLogged w ts token).bindSome fun s => tokenLoopLogged s.1 s.2 rest
termination_by data.length
decreasing_by
  all_goals
    have := List.length_pos_iff.mpr _h
    split_ifs
    · exact this
    · rw [List.length_drop]
      omega

def runChunkLogged (w : WriterThread) (ts : Targets R) (data : Str) :
    Logged Access (Option (WriterThread × Targets R)) :=
  let data := trimString data
  if data = [] then pure (some (w, ts))
  else do
    let last ← charAt data (data.length - 1)
    if last = ',' then
      (substrAt data 0 (some (data.length - 1))).bindSome (tokenLoopLogged w ts)
    else tokenLoopLogged w ts data

def runLogged : WriterThread → Targets R → List Str →
    Logged Access (Option (WriterThread × Targets R))
  | w, ts, [] => pure (some (w, ts))
  | w, ts, data :: reads =>
    (runChunkLogged w ts data).bindSome fun s => runLogged s.1 s.2 reads

end WriterThread

theorem isHeaderLogged_val (token : Str) :
    (isHeaderLogged token).val = WriterThread.isHeader token := by
  rcases token with _ | ⟨c1, _ | ⟨c2, _ | ⟨c3, token⟩⟩⟩ <;>
    simp [isHeaderLogged, WriterThread.isHeader, isalpha]

theorem isHeaderLogged_all (token : Str) :
    (isHeaderLogged token).All Access.Inside ↔ 2 ≤ token.length := by
  simp only [isHeaderLogged, Logged.all_bind, charAt_all, Logged.all_pure, and_true]
  omega

theorem scanLogged_val (length p : ℕ) (s : Str) :
    (scanLogged length p s).val = Target.hasEmptyField s := by
  induction s generalizing p with
  | nil => rfl
  | cons c s ih =>
    rw [scanLogged, Logged.bind_val, Logged.ite_val]
    split_ifs with hc hs
    · obtain ⟨s, rfl⟩ := List.head?_eq_some_iff.mp hs
      rw [hc]
      rfl
    · rw [Logged.bind_val, ih, hc, Target.hasEmptyField_comma hs]
    · rw [ih, Target.hasEmptyField_cons hc]

theorem scanLogged_all {length p : ℕ} {s : Str} (h : p + s.length ≤ length) :
    (scanLogged length p s).All Access.Inside := by
  induction s generalizing p with
  | nil => simpa [scanLogged, Access.Inside] using h
  | cons c s ih =>
    rw [List.length_cons] at h
    have hnext := ih (p := p + 1) (by omega)
    have hhere : p ≤ length := by omega
    have hthere : p + 1 ≤ length := by omega
    simp [scanLogged, Access.Inside, hnext, hhere, hthere]

variable {R : Type} [Field R] [PiConstant R]

theorem dataTestLogged_val (t : Target R) (data : Str) :
    (t.dataTestLogged data).val = t.dataTest data := by
  rw [Target.dataTestLogged, Logged.bind_val, scanLogged_val, Logged.ite_val, Target.dataTest]
  split_ifs
  · rfl
  · simp only [Logged.bindSome_val, substrAt_val, Logged.pure_val]
    rfl

theorem dataTestLogged_all (t : Target R) (data : Str) :
    (t.dataTestLogged data).All Access.Inside := by
  have hscan : (scanLogged (cStr data).length 0 (cStr data)).All Access.Inside :=
    scanLogged_all (by omega)
  rw [Target.dataTestLogged, Logged.all_bind, Logged.all_ite]
  refine ⟨hscan, ?_⟩
  split_ifs
  · exact Logged.all_pure _ _
  · simp [posAfter_find_le]

theorem exists_emitToTarget (ts : Targets R) (key data : Str) :
    ∃ ts', emitToTarget ts key data = some ts' := by
  cases hi : ts.targetMap key with
  | none => exact ⟨ts, by rw [emitToTarget, hi]⟩
  | some i =>
    obtain ⟨ts', hts, -⟩ := emitToTarget_targetPresent ts data hi
    exact ⟨ts', hts⟩

theorem emitToTargetLogged_val (ts : Targets R) (key data : Str) :
    (emitToTargetLogged ts key data).val = emitToTarget ts key data := by
  rw [emitToTargetLogged, emitToTarget]
  cases ts.targetMap key with
  | none => rfl
  | some i =>
    dsimp only
    rw [Logged.bindSome_val, dataTestLogged_val]
    rfl

theorem emitToTargetLogged_all (ts : Targets R) (key data : Str) :
    (emitToTargetLogged ts key data).All Access.Inside := by
  rw [emitToTargetLogged]
  cases ts.targetMap key with
  | none => simp
  | some i => simp [dataTestLogged_all]

namespace WriterThread

theorem emitRecordLogged_val (ts : Targets R) (data : Str) :
    (emitRecordLogged ts data).val = emitRecord ts data := by
  simp only [emitRecordLogged, Logged.bindSome_val, substrAt_val, emitToTargetLogged_val]
  rfl

theorem emitRecordLogged_all (ts : Targets R) (data : Str) :
    (emitRecordLogged ts data).All Access.Inside := by
  simp [emitRecordLogged, posAfter_find_le, emitToTargetLogged_all]

/-- Nothing throws. -/
theorem emitRecord_isSome (ts : Targets R) (data : Str) : ∃ ts', emitRecord ts data = some ts' := by
  rw [emitRecord, substr_isSome (Nat.zero_le _), substr_isSome (posAfter_find_le _ _ _)]
  exact exists_emitToTarget _ _ _

theorem takeTokenLogged_val (w : WriterThread) (ts : Targets R) (token : Str) :
    (takeTokenLogged w ts token).val =
      ((takeToken w token).log.foldlM emitRecord ts).map fun ts =>
        ((takeToken w token).val, ts) := by
  rw [takeTokenLogged, takeToken, Logged.bind_val, isHeaderLogged_val]
  cases isHeader token with
  | false => cases w.foundHeader <;> rfl
  | true =>
    cases w.foundHeader with
    | false => rfl
    | true =>
      simp only [if_true, Logged.bindSome_val, emitRecordLogged_val, List.foldlM_cons,
        List.foldlM_nil]
      cases emitRecord ts w.previousPartial <;> rfl

theorem takeTokenLogged_all (w : WriterThread) (ts : Targets R) (token : Str) :
    (takeTokenLogged w ts token).All Access.Inside ↔ 2 ≤ token.length := by
  rw [takeTokenLogged, Logged.all_bind, isHeaderLogged_all, and_iff_left]
  split_ifs <;> simp [emitRecordLogged_all]

theorem exists_emitRecords (records : List Str) (ts : Targets R) :
    ∃ ts', records.foldlM emitRecord ts = some ts' := by
  induction records generalizing ts with
  | nil => exact ⟨ts, rfl⟩
  | cons record records ih =>
    obtain ⟨ts₁, h₁⟩ := emitRecord_isSome ts record
    obtain ⟨ts', h'⟩ := ih ts₁
    refine ⟨ts', ?_⟩
    rw [List.foldlM_cons, h₁]
    exact h'

theorem exists_takeTokenLogged (w : WriterThread) (ts : Targets R) (token : Str) :
    ∃ ts', (takeTokenLogged w ts token).val = some ((takeToken w token).val, ts') := by
  obtain ⟨ts', hts⟩ := exists_emitRecords (takeToken w token).log ts
  exact ⟨ts', by rw [takeTokenLogged_val, hts, Option.map_some]⟩

def pieces (data : Str) : List Str :=
  let ps := data.splitOn ','
  if ps.getLast? = some [] then ps.dropLast else ps

/-- The tokens of a read. -/
def tokensOf (data : Str) : List Str :=
  let data := trimString data
  pieces (if data.getLast? = some ',' then data.dropLast else data)

@[simp] theorem pieces_nil : pieces [] = [] := by simp [pieces]

theorem pieces_of_notMem {s : Str} (hne : s ≠ []) (h : ',' ∉ s) : pieces s = [s] := by
  simp [pieces, List.splitOn_eq_singleton h, hne]

theorem pieces_append {a : Str} (h : ',' ∉ a) (s : Str) :
    pieces (a ++ ',' :: s) = a :: pieces s := by
  have hsplit : (a ++ ',' :: s).splitOn ',' = a :: s.splitOn ',' := by
    rw [List.splitOn_append_cons_self, List.splitOn_eq_singleton h, List.singleton_append]
  unfold pieces
  rw [hsplit]
  exact dropEmptyLast_cons a (List.splitOn_ne_nil ',' s)

theorem find_comma_cases (data : Str) :
    (find [','] data 0 = none ∧ ',' ∉ data) ∨
      ∃ a s, data = a ++ ',' :: s ∧ ',' ∉ a ∧ find [','] data 0 = some a.length := by
  by_cases h : ',' ∈ data
  · obtain ⟨a, s, rfl, ha⟩ := List.eq_append_cons_of_mem h
    exact Or.inr ⟨a, s, rfl, ha, by simpa using find_append [] ha s⟩
  · refine Or.inl ⟨?_, h⟩
    rw [find, if_pos (Nat.zero_le _), List.drop_zero, findFirst_of_notMem [] h]
    rfl

theorem tokenLoopLogged_of_ne_nil (w : WriterThread) (ts : Targets R) (token rest : Str)
    {data : Str} (h : data ≠ []) (htoken : (match find [','] data 0 with
      | none => data
      | some i => data.take i) = token)
    (hrest : (if token = data then [] else data.drop ((find [','] data 0).getD 0 + 1)) = rest) :
    tokenLoopLogged w ts data = (do
      Logged.tell ⟨0, data.length⟩
      if token ≠ data then Logged.tell ⟨posAfter (find [','] data 0), data.length⟩
      (takeTokenLogged w ts token).bindSome fun s => tokenLoopLogged s.1 s.2 rest) := by
  subst htoken hrest
  exact (tokenLoopLogged.eq_def w ts data).trans (dif_neg h)

theorem tokenLoopLogged_all (w : WriterThread) (ts : Targets R) (data : Str) :
    (tokenLoopLogged w ts data).All Access.Inside ↔ ∀ token ∈ pieces data, 2 ≤ token.length := by
  induction hn : data.length using Nat.strong_induction_on generalizing w ts data with
  | _ n ih =>
    subst hn
    by_cases hnil : data = []
    · rw [hnil, tokenLoopLogged, dif_pos rfl]
      simp
    obtain ⟨hnone, hcomma⟩ | ⟨a, s, rfl, ha, hfind⟩ := find_comma_cases data
    · obtain ⟨ts', hval⟩ := exists_takeTokenLogged w ts data
      rw [tokenLoopLogged_of_ne_nil w ts data [] hnil (by rw [hnone]) (if_pos rfl),
        pieces_of_notMem hnil hcomma]
      simp [takeTokenLogged_all, hval, tokenLoopLogged, Access.Inside]
    · obtain ⟨ts', hval⟩ := exists_takeTokenLogged w ts a
      have hne : a ≠ a ++ ',' :: s := by simp
      rw [tokenLoopLogged_of_ne_nil w ts a s hnil (by rw [hfind]; simp)
        (by rw [if_neg hne, hfind]; simp), pieces_append ha]
      have hrest := ih s.length (by simp; omega) (takeToken w a).val ts' s rfl
      simp [takeTokenLogged_all, hval, hfind, posAfter, hrest, Access.Inside]

theorem bind_emitRecords {records others : List Str} {w w' : WriterThread} (ts : Targets R)
    {f : WriterThread × Targets R → Option (WriterThread × Targets R)}
    (hf : ∀ ts, f (w, ts) = (others.foldlM emitRecord ts).map fun ts => (w', ts)) :
    ((records.foldlM emitRecord ts).map fun ts => (w, ts)).bind f =
      ((records ++ others).foldlM emitRecord ts).map fun ts => (w', ts) := by
  rw [List.foldlM_append]
  cases records.foldlM emitRecord ts with
  | none => rfl
  | some ts' => exact hf ts'

theorem tokenLoopLogged_val (w : WriterThread) (ts : Targets R) (data : Str) :
    (tokenLoopLogged w ts data).val =
      ((tokenLoop w data).log.foldlM emitRecord ts).map fun ts => ((tokenLoop w data).val, ts) := by
  induction w, data using tokenLoop.induct generalizing ts with
  | case1 w =>
    rw [tokenLoopLogged, dif_pos rfl, tokenLoop, dif_pos rfl]
    rfl
  | case2 w data h comma token rest ih =>
    rw [tokenLoopLogged_of_ne_nil w ts token rest h rfl rfl,
      tokenLoop_of_ne_nil w token rest h rfl rfl]
    simp only [Logged.bind_val, Logged.ite_val, ite_self, Logged.bindSome_val, takeTokenLogged_val]
    exact bind_emitRecords ts ih

/-- Whether the last character is a comma, as `run` asks. -/
theorem last_comma_iff {data : Str} (h : data ≠ []) :
    data.getD (data.length - 1) '\x00' = ',' ↔ data.getLast? = some ',' := by
  rw [List.getD_eq_getElem?_getD, ← List.getLast?_eq_getElem?, List.getLast?_eq_some_getLast h]
  simp

theorem substr_dropLast (data : Str) :
    substr data 0 (some (data.length - 1)) = some data.dropLast := by
  rw [substr_isSome (Nat.zero_le _), List.drop_zero, Option.getD_some, List.dropLast_eq_take]

theorem runChunkLogged_val (w : WriterThread) (ts : Targets R) (data : Str) :
    (runChunkLogged w ts data).val =
      ((runChunk w data).log.foldlM emitRecord ts).map fun ts => ((runChunk w data).val, ts) := by
  rw [runChunkLogged, runChunk]
  dsimp only
  split_ifs with hnil hlast
  · rfl
  · simp only [Logged.bind_val, charAt_val, last_comma_iff hnil, hlast, if_true,
      Logged.bindSome_val, substrAt_val, substr_dropLast, Option.bind_some, tokenLoopLogged_val]
  · simp only [Logged.bind_val, charAt_val, last_comma_iff hnil, hlast, if_false,
      tokenLoopLogged_val]

theorem runChunkLogged_all (w : WriterThread) (ts : Targets R) (data : Str) :
    (runChunkLogged w ts data).All Access.Inside ↔ ∀ token ∈ tokensOf data, 2 ≤ token.length := by
  rw [runChunkLogged, tokensOf]
  split_ifs with hnil hlast hlast
  · rw [hnil] at hlast
    simp at hlast
  · simp [hnil]
  · simp only [Logged.all_bind, charAt_all, charAt_val, last_comma_iff hnil,
      hlast, if_true, Logged.all_bindSome, substrAt_all, substrAt_val, substr_dropLast,
      Option.mem_def, Option.some.injEq, forall_eq', tokenLoopLogged_all]
    simp
  · simp only [Logged.all_bind, charAt_all, charAt_val, last_comma_iff hnil,
      hlast, if_false, tokenLoopLogged_all]
    simp

/-- The reader that notes its positions does what the reader does: it emits the records of
`run`, one after the other, to the targets. -/
theorem runLogged_val (w : WriterThread) (ts : Targets R) (reads : List Str) :
    (runLogged w ts reads).val =
      ((run w reads).log.foldlM emitRecord ts).map fun ts => ((run w reads).val, ts) := by
  induction reads generalizing w ts with
  | nil => rfl
  | cons data reads ih =>
    rw [runLogged, run, Logged.bindSome_val, runChunkLogged_val]
    exact bind_emitRecords ts fun ts => ih _ ts

theorem runLogged_all (w : WriterThread) (ts : Targets R) (reads : List Str) :
    (runLogged w ts reads).All Access.Inside ↔
      ∀ data ∈ reads, ∀ token ∈ tokensOf data, 2 ≤ token.length := by
  induction reads generalizing w ts with
  | nil => simp [runLogged]
  | cons data reads ih =>
    obtain ⟨ts', hts⟩ := exists_emitRecords (runChunk w data).log ts
    rw [runLogged, Logged.all_bindSome, runChunkLogged_all, runChunkLogged_val, hts]
    simp [ih]

/-- Every position at which the reader reads a string lies inside it exactly when no token of
the stream is shorter than two characters. -/
theorem run_reads_inside_iff (w : WriterThread) (ts : Targets R) (reads : List Str) :
    (runLogged w ts reads).val =
        ((run w reads).log.foldlM emitRecord ts).map (fun ts => ((run w reads).val, ts)) ∧
      ((runLogged w ts reads).All Access.Inside ↔
        ∀ data ∈ reads, ∀ token ∈ tokensOf data, 2 ≤ token.length) :=
  ⟨runLogged_val w ts reads, runLogged_all w ts reads⟩

theorem run_reads_outside :
    ¬ (runLogged construct (⟨fun _ => ⟨none, fun _ => none, false, 0, 0, 0, 0, 0, 0⟩,
      fun _ => none, fun _ => none⟩ : Targets ℝ) ["MT_A,(1.5,2.5),30,8".toList]).All
        Access.Inside := by
  intro h
  rw [runLogged, Logged.all_bindSome, runChunkLogged_all] at h
  exact absurd (h.1 ['8'] (by decide +kernel)) (by decide)

end WriterThread
end Arm2D
