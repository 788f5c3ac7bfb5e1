import Arm2D.BestSighting
import Arm2D.CameraReports
import Arm2D.CameraThreads
import Arm2D.EmptyFields
import Arm2D.RegisteredTargets
import Arm2D.SensorStream

/-! # From the camera's stream to the pattern that is chosen

The stream is cut into records, a record goes to the target that the parameter file registers
under its key, and a look chooses among the targets that were reported. -/
namespace Arm2D
open Library WriterThread

theorem isalpha_of_isDigit {c : Char} (h : c.isDigit = true) : isalpha c = false := by
  have hnine : c.toNat ≤ 57 := (Char.isDigit_iff_toNat.mp h).2
  have hbefore : ∀ a : Char, 57 < a.toNat → ¬ a ≤ c := by
    intro a ha hac
    have hle : a.toNat ≤ c.toNat := hac
    omega
  simp [isalpha, hbefore 'a' (by decide), hbefore 'A' (by decide)]

section numerals
variable (left right : Str) (h : ∀ c ∈ left ++ right, c = '(' ∨ c = ')') (n : Numeral)
include h

theorem Numeral.mem_around {c : Char} (hc : c ∈ left ++ (n.text ++ right)) :
    c ∈ n.text ∨ c = '(' ∨ c = ')' := by
  simp only [List.mem_append] at h hc
  rcases hc with hc | hc | hc
  · exact Or.inr (h c (Or.inl hc))
  · exact Or.inl hc
  · exact Or.inr (h c (Or.inr hc))

/-- A numeral with what stands around it. -/
def Numeral.token : Token where
  text := left ++ (n.text ++ right)
  comma := by
    intro hc
    rcases n.mem_around left right h hc with hc | hc | hc
    · exact comma_notMem_text n hc
    · exact absurd hc (by decide)
    · exact absurd hc (by decide)

theorem Numeral.clean_token : (n.token left right h).Clean := by
  refine ⟨?_, fun c hc => ?_, fun hc => ?_⟩
  · change left ++ (n.text ++ right) ≠ []
    simp [n.text_ne_nil]
  · rcases n.mem_around left right h hc with hc | rfl | rfl
    · exact n.isspace_of_mem_text hc
    · rfl
    · rfl
  · rcases n.mem_around left right h hc with hc | hc | hc
    · exact n.nul_notMem_text hc
    · exact absurd hc (by decide)
    · exact absurd hc (by decide)

theorem Numeral.header_token : (n.token left right h).header = false := by
  have hletters : ∀ c ∈ left ++ (n.text ++ right), isalpha c = false := by
    intro c hc
    rcases n.mem_around left right h hc with hc | rfl | rfl
    · rcases n.mem_text hc with hdigit | rfl | rfl | rfl
      · exact isalpha_of_isDigit hdigit
      · rfl
      · rfl
      · rfl
    · rfl
    · rfl
  change isHeader (left ++ (n.text ++ right)) = false
  generalize left ++ (n.text ++ right) = text at hletters
  unfold isHeader
  split
  · rw [hletters _ List.mem_cons_self]
    rfl
  · rfl

end numerals

/-- The fields of a report. -/
def Report.tokens (r : Report) : List Token :=
  [r.x.token ['('] [] (by simp), r.y.token [] [')'] (by simp), r.rotation.token [] [] (by simp),
    r.percent.token [] [] (by simp)]

theorem Report.joined_tokens (r : Report) : joined r.tokens = r.text := by
  simp [tokens, joined_cons_cons, Numeral.token, text, pair, rest]

/-- What the camera says of a pattern. -/
structure Sighting where
  header : Token
  isHeader : header.header = true
  report : Report

namespace Sighting
variable (s : Sighting)

def record : Record where
  header := s.header
  fields := s.report.tokens
  isHeader := s.isHeader
  noHeader := by
    intro t ht
    simp only [Report.tokens, List.mem_cons, List.not_mem_nil, or_false] at ht
    rcases ht with rfl | rfl | rfl | rfl <;> exact Numeral.header_token _ _ _ _

def entry : Str × Str := (s.header.text, s.report.text)

theorem record_text : s.record.text = s.header.text ++ ',' :: s.report.text := by
  rw [Record.text, Record.tokens, ← s.report.joined_tokens]
  exact joined_cons_cons _ _ _

theorem recordReport_text : recordReport s.record.text = s.entry := by
  have hfind : find [','] s.record.text 0 = some s.header.text.length := by
    rw [record_text, s.header.find_comma]
  rw [recordReport, hfind, substr_isSome (Nat.zero_le _), posAfter, record_text,
    substr_npos (by simp)]
  simp [entry]

end Sighting

/-- The tokens of a stream of sightings. -/
def Sighting.stream (sightings : List Sighting) : List Token :=
  Record.stream (sightings.map Sighting.record)

theorem segments_of_sightings {sightings : List Sighting} {tokens : List Token}
    (h : tokens <+: Sighting.stream sightings) :
    (segments Token.header tokens).map joined =
      (sightings.take (tokens.countP Token.header - 1)).map fun s => s.record.text := by
  rw [segments_of_stopped Record.isRecord_of_mem h, ← List.map_take, ← List.map_take,
    List.map_map, List.map_map]
  rfl

theorem run_sightings {sightings : List Sighting} {before : List Token} {reads : List Read}
    (h : before ++ reads.flatMap Read.tokens <+: Sighting.stream sightings) :
    run (holding (feed Token.header none before).val) (reads.map Read.text) =
      ⟨holding (feed Token.header none (before ++ reads.flatMap Read.tokens)).val,
        ((sightings.take ((before ++ reads.flatMap Read.tokens).countP Token.header - 1)).drop
          (before.countP Token.header - 1)).map fun s => s.record.text⟩ := by
  have hpending : ∀ p ∈ (feed Token.header none before).val, p ≠ [] :=
    (feed_ne_nil (by simp) before).1
  have hbefore := segments_of_sightings ((List.prefix_append _ _).trans h)
  have hafter := segments_of_sightings h
  rw [run_reads]
  generalize reads.flatMap Read.tokens = tokens at h hafter ⊢
  obtain ⟨hval, hlog⟩ := @feed_append _ Token.header none before tokens
  have hcount : before.countP Token.header ≤ (before ++ tokens).countP Token.header := by
    rw [List.countP_append]
    exact Nat.le_add_right _ _
  generalize before.countP Token.header = n at hbefore hcount ⊢
  generalize (before ++ tokens).countP Token.header = m at hafter hcount ⊢
  have hsplit : sightings.take (m - 1) =
      sightings.take (n - 1) ++ (sightings.take (m - 1)).drop (n - 1) :=
    (drop_take_append_drop_take sightings (Nat.zero_le _) (Nat.sub_le_sub_right hcount 1)).symm
  rw [segments, hlog, List.map_append, ← segments, hbefore, hsplit, List.map_append] at hafter
  rw [takeTokens_feed hpending, hval, List.append_cancel_left hafter]

variable {R : Type} [Field R] [PiConstant R]

structure Target.Measured (t : Target R) (r : Report) : Prop where
  present : t.targetPresent = true
  fovX : t.fovX = r.x.value
  fovY : t.fovY = r.y.value
  fovTheta : t.fovTheta = r.rotation.value * PI / 180
  fovMatch : t.fovMatch = r.percent.value

theorem tested_measured (s : Sighting) (t : Target R) : (tested s.entry t).Measured s.report := by
  obtain ⟨t', ht, hpresent, hx, hy, htheta, hmatch⟩ := dataTest_report t s.report
  have htested : tested s.entry t = t' := by
    rw [tested, Sighting.entry, ht, Option.getD_some]
  rw [htested]
  exact ⟨hpresent, hx, hy, htheta, hmatch⟩

theorem foldl_tested_measured (sightings : List Sighting) (t : Target R) :
    ∀ s ∈ sightings.getLast?,
      (sightings.foldl (fun t s => tested s.entry t) t).Measured s.report := by
  intro s hs
  obtain ⟨before, rfl⟩ := List.getLast?_eq_some_iff.mp hs
  rw [List.foldl_append]
  exact tested_measured s _

def lastSighting (lines : List Str) (sightings : List Sighting) (p : ℕ) : Option Report :=
  ((sightings.filter fun s =>
    lastDefined lines "report_id".toList s.header.text = some p).getLast?).map Sighting.report

theorem sightings_measured {targetMap : Str → Option ℕ} {lines : List Str}
    (htargetMap : ∀ key, targetMap key = lastDefined lines "report_id".toList key)
    (sightings : List Sighting) (heap : ℕ → Target R) (p : ℕ) :
    let after := (sightings.map Sighting.entry).foldl (touch (reportPlace targetMap) tested) heap
    (lastSighting lines sightings p = none → after p = heap p) ∧
      ∀ r ∈ lastSighting lines sightings p, (after p).Measured r := by
  intro after
  have hafter : after p = (sightings.filter fun s =>
      lastDefined lines "report_id".toList s.header.text = some p).foldl
        (fun t s => tested s.entry t) (heap p) := by
    have hplace : reportPlace targetMap = fun r : Str × Str =>
        lastDefined lines "report_id".toList r.1 := funext fun r => htargetMap r.1
    simp only [after, hplace]
    rw [foldl_touch, eventsAt, List.filter_map, List.foldl_map]
    rfl
  rw [hafter]
  refine ⟨fun hnone => ?_, fun r hr => ?_⟩
  · rw [lastSighting, Option.map_eq_none_iff, List.getLast?_eq_none_iff] at hnone
    rw [hnone]
    rfl
  · obtain ⟨s, hs, rfl⟩ := Option.map_eq_some_iff.mp hr
    exact foldl_tested_measured _ _ s hs

section look
variable [LinearOrder R] {g : ArmParameters R}

omit [PiConstant R] in
theorem pointInTimeBestMatch_found (targetStorage : List ℕ) (ts : Targets R) (hat : R × R) :
    let r := pointInTimeBestMatch targetStorage ts hat
    (r.1 = none ∧ ∀ p ∈ targetStorage, ¬ (ts.heap p).Sighted) ∨
      ∃ best, r.1 = some best ∧
        FirstGreatest (fun p => (ts.heap p).Sighted) (fun p => (ts.heap p).fovMatch)
          targetStorage best ∧
        r.2.1 = ((ts.heap best).fovX, (ts.heap best).fovY) := by
  have hfound := BestMatch.foldl_look_best targetStorage ts.heap
  have hheap := BestMatch.foldl_look_taken targetStorage ⟨ts.heap, 0, none⟩
  unfold pointInTimeBestMatch
  generalize targetStorage.foldl BestMatch.look ⟨ts.heap, 0, none⟩ = b at hfound hheap ⊢
  obtain ⟨heap, percentMatch, best⟩ := b
  dsimp only at hheap hfound
  subst hheap
  rcases hfound with ⟨rfl, hnone⟩ | ⟨m, rfl, hm⟩
  · exact Or.inl ⟨rfl, hnone⟩
  · exact Or.inr ⟨m, rfl, hm, rfl⟩

theorem sighted_iff {t start : Target R} {last : Option Report}
    (hstart : start.targetPresent = false) (hnone : last = none → t = start)
    (hmeasured : ∀ r ∈ last, t.Measured r) :
    t.Sighted ↔ ∃ r ∈ last, (0 : R) < r.percent.value := by
  cases last with
  | none => simp [hnone rfl, Target.Sighted, hstart]
  | some r =>
    have hr := hmeasured r rfl
    simp [Target.Sighted, hr.present, hr.fovMatch]

/-- What the camera's thread and the looks share, with the place of the last pattern found. -/
structure LookState (R : Type) where
  thread : WriterThread
  targets : Targets R
  hat : R × R

namespace LookState

/-- The camera's reads, then a look. -/
def round (targetStorage : List ℕ) (s : LookState R) (reads : List Str) :
    Option (Option ℕ × LookState R) := do
  let r := run s.thread reads
  let ts ← r.log.foldlM emitRecord s.targets
  let (best, hat, ts) := pointInTimeBestMatch targetStorage ts s.hat
  return (best, ⟨r.val, ts, hat⟩)

/-- Each look's target, with the place that is known behind the look. -/
def rounds (targetStorage : List ℕ) : LookState R → List (List Str) →
    Option (List (Option ℕ × (R × R)))
  | _, [] => some []
  | s, reads :: rest => do
    let (best, s) ← s.round targetStorage reads
    let looks ← s.rounds targetStorage rest
    return (best, s.hat) :: looks

end LookState

/-- The choice of a look among the targets that were seen since the look before: none exactly when
no target's last sighting is a positive match, and else the first of the targets with the greatest
one, at the place where it was seen. -/
structure Chosen (lines : List Str) (targetStorage : List ℕ) (sightings : List Sighting)
    (choice : Option ℕ × (R × R)) : Prop where
  none_iff : choice.1 = none ↔
    ∀ p ∈ targetStorage, ¬ ∃ r ∈ lastSighting lines sightings p, (0 : R) < r.percent.value
  some : ∀ best ∈ choice.1,
    FirstGreatest (fun p => ∃ r ∈ lastSighting lines sightings p, (0 : R) < r.percent.value)
      (fun p => ((lastSighting lines sightings p).map fun r => (r.percent.value : R)).getD 0)
      targetStorage best ∧
    ∃ r ∈ lastSighting lines sightings best, choice.2 = ((r.x.value : R), (r.y.value : R))

/-- What the sightings of one round make of the look behind it. -/
theorem chosen {targetStorage : List ℕ} {lines : List Str} {ts start : Targets R}
    {sightings : List Sighting} (hnone : NonePresent targetStorage start.heap)
    (hmeasured : ∀ p, (lastSighting lines sightings p = none → ts.heap p = start.heap p) ∧
      ∀ r ∈ lastSighting lines sightings p, (ts.heap p).Measured r) (hat : R × R) :
    Chosen lines targetStorage sightings ((pointInTimeBestMatch targetStorage ts hat).1,
      (pointInTimeBestMatch targetStorage ts hat).2.1) := by
  have hsighted : ∀ p ∈ targetStorage, ((ts.heap p).Sighted ↔
      ∃ r ∈ lastSighting lines sightings p, (0 : R) < r.percent.value) := fun p hp =>
    sighted_iff (hnone p hp) (hmeasured p).1 (hmeasured p).2
  have hmatch : ∀ p ∈ targetStorage, (ts.heap p).Sighted → (ts.heap p).fovMatch =
      ((lastSighting lines sightings p).map fun r => (r.percent.value : R)).getD 0 := by
    intro p hp hseen
    obtain ⟨r, hr, -⟩ := (hsighted p hp).mp hseen
    rw [((hmeasured p).2 r hr).fovMatch, Option.mem_def.mp hr]
    rfl
  rcases pointInTimeBestMatch_found targetStorage ts hat with
    ⟨hbest, hunseen⟩ | ⟨m, hbest, hgreatest, hplace⟩
  · have hnowhere : ∀ p ∈ targetStorage,
        ¬ ∃ r ∈ lastSighting lines sightings p, (0 : R) < r.percent.value :=
      fun p hp => (hsighted p hp).not.mp (hunseen p hp)
    exact ⟨iff_of_true hbest hnowhere, by simp [hbest]⟩
  · have hgreatest' := hgreatest.congr hsighted hmatch
    obtain ⟨r, hr, -⟩ := hgreatest'.holds
    have hseen := (hmeasured m).2 r hr
    refine ⟨iff_of_false (by simp [hbest]) fun hnowhere => ?_, fun best hbest' => ?_⟩
    · exact hnowhere m hgreatest'.mem hgreatest'.holds
    · obtain rfl := Option.some.inj (hbest.symm.trans hbest')
      exact ⟨hgreatest', r, hr, by rw [hplace, hseen.fovX, hseen.fovY]⟩

/-- The sightings that become complete in each round, the tokens `before` having come. -/
def roundSightings (sightings : List Sighting) : List Token → List (List Read) →
    List (List Sighting)
  | _, [] => []
  | before, reads :: rounds =>
    let after := before ++ reads.flatMap Read.tokens
    (sightings.take (after.countP Token.header - 1)).drop (before.countP Token.header - 1) ::
      roundSightings sightings after rounds

/-- Every sighting counts to one look, and in order; only the last one is still in the thread. -/
theorem flatten_roundSightings (sightings : List Sighting) (before : List Token)
    (rounds : List (List Read)) :
    (roundSightings sightings before rounds).flatten =
      (sightings.take ((before ++ rounds.flatten.flatMap Read.tokens).countP Token.header - 1)).drop
        (before.countP Token.header - 1) := by
  induction rounds generalizing before with
  | nil => simp [roundSightings]
  | cons reads rounds ih =>
    rw [roundSightings, List.flatten_cons, ih, List.flatten_cons, List.flatMap_append,
      ← List.append_assoc]
    simp only [List.countP_append]
    rw [drop_take_append_drop_take] <;> omega

namespace LookState

/-- The tokens `before` have come, and a look was taken. -/
structure After (lines : List Str) (targetStorage : List ℕ) (before : List Token)
    (s : LookState R) : Prop where
  thread : s.thread = holding (feed Token.header none before).val
  targetMap : ∀ key, s.targets.targetMap key = lastDefined lines "report_id".toList key
  nonePresent : NonePresent targetStorage s.targets.heap

variable {lines : List Str} {targetStorage : List ℕ} {before : List Token} {s : LookState R}
  {sightings : List Sighting}

theorem After.round (hs : s.After lines targetStorage before) {reads : List Read}
    (h : before ++ reads.flatMap Read.tokens <+: Sighting.stream sightings) :
    let after := before ++ reads.flatMap Read.tokens
    ∃ best s', s.round targetStorage (reads.map Read.text) = some (best, s') ∧
      s'.After lines targetStorage after ∧
      Chosen lines targetStorage ((sightings.take (after.countP Token.header - 1)).drop
        (before.countP Token.header - 1)) (best, s'.hat) := by
  intro after
  have hrun := run_sightings h
  generalize (sightings.take (after.countP Token.header - 1)).drop
    (before.countP Token.header - 1) = complete at hrun ⊢
  let ts : Targets R := { s.targets with
    heap := (complete.map Sighting.entry).foldl (touch (reportPlace s.targets.targetMap) tested)
      s.targets.heap }
  have hreceive : (complete.map fun s => s.record.text).foldlM emitRecord s.targets = some ts := by
    have hentries : (complete.map fun s => s.record.text).map recordReport =
        complete.map Sighting.entry := by
      rw [List.map_map]
      exact List.map_congr_left fun s _ => s.recordReport_text
    rw [emitRecords_eq_receive, hentries, receive_eq_touch]
  obtain ⟨-, htargetMap, hpresent⟩ := pointInTimeBestMatch_spec targetStorage ts s.hat
  have hmeasured : ∀ p, (lastSighting lines complete p = none → ts.heap p = s.targets.heap p) ∧
      ∀ r ∈ lastSighting lines complete p, (ts.heap p).Measured r :=
    sightings_measured hs.targetMap complete s.targets.heap
  have hchosen := chosen hs.nonePresent hmeasured s.hat
  refine ⟨_, ⟨_, (pointInTimeBestMatch targetStorage ts s.hat).2.2, _⟩, ?_, ⟨rfl, ?_, hpresent⟩,
    hchosen⟩
  · rw [LookState.round, hs.thread, hrun]
    dsimp only
    rw [hreceive]
    rfl
  · intro key
    rw [htargetMap]
    exact hs.targetMap key

theorem After.rounds (hs : s.After lines targetStorage before) {rounds : List (List Read)}
    (h : before ++ rounds.flatten.flatMap Read.tokens <+: Sighting.stream sightings) :
    ∃ looks, s.rounds targetStorage (rounds.map (List.map Read.text)) = some looks ∧
      List.Forall₂ (Chosen lines targetStorage) (roundSightings sightings before rounds) looks := by
  induction rounds generalizing s before with
  | nil => exact ⟨[], rfl, .nil⟩
  | cons reads rounds ih =>
    rw [List.flatten_cons, List.flatMap_append, ← List.append_assoc] at h
    obtain ⟨best, s', hround, hs', hchosen⟩ := hs.round ((List.prefix_append _ _).trans h)
    obtain ⟨looks, hrounds, hlooks⟩ := ih hs' h
    refine ⟨(best, s'.hat) :: looks, ?_, .cons hchosen hlooks⟩
    rw [List.map_cons, LookState.rounds, hround, Option.bind_eq_bind, Option.bind_some]
    dsimp only
    rw [hrounds]
    rfl

end LookState

/-- What the camera sends decides the looks, however the stream is cut and whenever they are
taken: a look chooses among the sightings that became complete since the look before, and goes by
the last one of each target, which is the one that the last definition with its report id
registers. Every sighting counts to one look, but for the last one, which is still in the
thread. -/
theorem stream_decides_looks (c : ArmConfiguration g) {params : ParameterMap} {s : SensorTable}
    (h : initSensorDescriptions c params = some s) {sightings : List Sighting}
    {rounds : List (List Read)}
    (hreads : rounds.flatten.flatMap Read.tokens <+: Sighting.stream sightings) (hat : R × R) :
    let complete := roundSightings sightings [] rounds
    (∃ looks, LookState.rounds s.targetStorage
        ⟨construct, s.runTargets (definitionLines params), hat⟩
        (rounds.map (List.map Read.text)) = some looks ∧
      List.Forall₂ (Chosen (definitionLines params) s.targetStorage) complete looks) ∧
      complete.flatten =
        sightings.take ((rounds.flatten.flatMap Read.tokens).countP Token.header - 1) := by
  have hregistered := initSensorDescriptions_registered c h
  have hstart : LookState.After (definitionLines params) s.targetStorage []
      (⟨construct, s.runTargets (definitionLines params), hat⟩ : LookState R) :=
    ⟨rfl, hregistered.targetMap, fun _ _ => rfl⟩
  exact ⟨hstart.rounds hreads, flatten_roundSightings sightings [] rounds⟩

end look

def sightingAt (x y : ℤ) : Sighting where
  header := presentPattern.header
  isHeader := presentPattern.isHeader
  report := ⟨.ofInt x, .ofInt y, .ofInt 0, .ofInt 66⟩

def twoSightings : List Sighting := [sightingAt 1 2, sightingAt 3 4]

theorem clean_twoSightings : ∀ t ∈ Sighting.stream twoSightings, t.Clean := by
  have hheader : presentPattern.header.Clean :=
    ⟨by decide, by simp [presentPattern, absentPattern, isspace], by decide⟩
  intro t ht
  simp only [Sighting.stream, Record.stream, twoSightings, List.map_cons, List.map_nil,
    List.flatten_cons, List.flatten_nil, List.append_nil, List.mem_append, Record.tokens,
    Sighting.record, Report.tokens, List.mem_cons, List.not_mem_nil, or_false] at ht
  rcases ht with (rfl | rfl | rfl | rfl | rfl) | (rfl | rfl | rfl | rfl | rfl)
  · exact hheader
  iterate 4 exact Numeral.clean_token _ _ _ _
  · exact hheader
  iterate 4 exact Numeral.clean_token _ _ _ _

def cutSightings : List (List Read) :=
  let tokens := Sighting.stream twoSightings
  [[.delivery ⟨[], tokens.take 2, true, ['\n'], by simp, by simp [isspace], by decide,
      fun t ht => clean_twoSightings t (List.mem_of_mem_take ht)⟩],
    [.delivery ⟨[], tokens.drop 2, false, [], by simp, by simp, by decide,
      fun t ht => clean_twoSightings t (List.mem_of_mem_drop ht)⟩]]

theorem roundSightings_cutSightings :
    roundSightings twoSightings [] cutSightings = [[], [sightingAt 1 2]] := by
  rfl

theorem lastSighting_sightingAt {lines : List Str}
    (h : lastDefined lines "report_id".toList "MT_A".toList = some 0) (x y : ℤ) (p : ℕ) :
    lastSighting lines [sightingAt x y] p =
      if p = 0 then some (sightingAt x y).report else none := by
  have hkept : lastDefined lines "report_id".toList (sightingAt x y).header.text = some 0 := h
  rw [lastSighting, List.filter_cons, hkept]
  by_cases hp : p = 0
  · simp [hp]
  · simp [hp, Ne.symm hp]

theorem stream_decides_looks_two :
    let params := parametersWith [("(s)camera[1]".toList, "fov_w:640".toList),
      ("(t)definition[1]".toList, "report_id:MT_A;source:camera[1]".toList)]
    let c := ArmConfiguration.construct (⟨0, 2, 1, 20000, 20000⟩ : ArmParameters ℝ) 0 0 0 0
    ∃ s, initSensorDescriptions c params = some s ∧ ∃ first second,
      LookState.rounds s.targetStorage
        ⟨construct, s.runTargets (definitionLines params), ((0 : ℝ), (0 : ℝ))⟩
        (cutSightings.map (List.map Read.text)) = some [first, second] ∧
      first.1 = none ∧ (second.1 = none ↔ 0 ∉ s.targetStorage) ∧
      ∀ best ∈ second.1, second.2 = (1, 2) := by
  intro params c
  obtain ⟨s, hs⟩ := exists_initSensorDescriptions_camera c (by decide +kernel) (by
    unfold SensorTable.AddsToTarget
    decide +kernel : ∀ e ∈ params.toList, _) (by
    unfold SourcesNamed
    decide +kernel : SourcesNamed params)
  have hreads : cutSightings.flatten.flatMap Read.tokens <+: Sighting.stream twoSightings :=
    List.prefix_rfl
  have hline : lastDefined (definitionLines params) "report_id".toList "MT_A".toList = some 0 := by
    decide +kernel
  obtain ⟨⟨looks, hlooks, hchosen⟩, -⟩ := stream_decides_looks c hs hreads ((0 : ℝ), (0 : ℝ))
  have hlast := lastSighting_sightingAt hline 1 2
  rw [roundSightings_cutSightings] at hchosen
  rcases hchosen with - | ⟨hfirst, - | ⟨hsecond, - | -⟩⟩
  refine ⟨s, hs, _, _, hlooks, ?_, ?_, ?_⟩
  · exact hfirst.none_iff.mpr fun p _ ⟨r, hr, _⟩ => by cases hr
  · rw [hsecond.none_iff]
    have hpositive : (0 : ℝ) < (sightingAt 1 2).report.percent.value := by
      simp [sightingAt, Numeral.ofInt_value]
    constructor
    · intro hnowhere hmem
      exact hnowhere 0 hmem ⟨_, hlast 0, hpositive⟩
    · intro hmem p hp ⟨r, hr, _⟩
      rw [hlast] at hr
      split_ifs at hr with hzero
      · exact hmem (hzero ▸ hp)
      · cases hr
  · intro best hbest
    obtain ⟨-, r, hr, hplace⟩ := hsecond.some best hbest
    rw [hlast] at hr
    split_ifs at hr
    · obtain rfl := Option.some.inj hr
      simp [hplace, sightingAt, Numeral.ofInt_value]
    · cases hr

end Arm2D
