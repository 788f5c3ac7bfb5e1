import Arm2D.Library.Logged

/-! # Segments of a stream of tokens

Headers cut a stream of tokens into segments. A segment is given out when the next
header comes, so that the last one stays pending. Of a chunk of the stream the last token
may be lost, when it is of some kind. -/
namespace Arm2D.Library

variable {α : Type*} (header : α → Bool)

def push (pending : Option (List α)) (a : α) : Logged (List α) (Option (List α)) :=
  if header a then ⟨some [a], pending.toList⟩ else ⟨pending.map (· ++ [a]), []⟩

def feed : Option (List α) → List α → Logged (List α) (Option (List α))
  | pending, [] => ⟨pending, []⟩
  | pending, a :: s =>
    ⟨(feed (push header pending a).val s).val,
      (push header pending a).log ++ (feed (push header pending a).val s).log⟩

def segments (s : List α) : List (List α) := (feed header none s).log

variable {header}

theorem feed_append (pending : Option (List α)) (s t : List α) :
    (feed header pending (s ++ t)).val = (feed header (feed header pending s).val t).val ∧
      (feed header pending (s ++ t)).log =
        (feed header pending s).log ++ (feed header (feed header pending s).val t).log := by
  induction s generalizing pending with
  | nil => exact ⟨rfl, rfl⟩
  | cons a s ih =>
    obtain ⟨hval, hlog⟩ := ih (push header pending a).val
    refine ⟨hval, ?_⟩
    rw [List.cons_append, feed, feed, hlog]
    exact (List.append_assoc _ _ _).symm

theorem feed_log_of_no_header (pending : Option (List α)) {s : List α}
    (h : ∀ a ∈ s, header a = false) : (feed header pending s).log = [] := by
  induction s generalizing pending with
  | nil => rfl
  | cons a s ih =>
    have ha := h a List.mem_cons_self
    rw [feed, ih _ (fun b hb => h b (List.mem_cons_of_mem _ hb)), push, ha]
    rfl

theorem feed_val_of_no_header (p : List α) {s : List α} (h : ∀ a ∈ s, header a = false) :
    (feed header (some p) s).val = some (p ++ s) := by
  induction s generalizing p with
  | nil => rw [List.append_nil]; rfl
  | cons a s ih =>
    have ha := h a List.mem_cons_self
    have hpush : (push header (some p) a).val = some (p ++ [a]) := by rw [push, ha]; rfl
    rw [feed, hpush, ih _ (fun b hb => h b (List.mem_cons_of_mem _ hb)), List.append_assoc]
    rfl

theorem feed_ne_nil {pending : Option (List α)} (h : ∀ p ∈ pending, p ≠ []) (s : List α) :
    (∀ p ∈ (feed header pending s).val, p ≠ []) ∧ ∀ p ∈ (feed header pending s).log, p ≠ [] := by
  induction s generalizing pending with
  | nil => exact ⟨h, fun p hp => absurd hp List.not_mem_nil⟩
  | cons a s ih =>
    have hpush : (∀ p ∈ (push header pending a).val, p ≠ []) ∧
        ∀ p ∈ (push header pending a).log, p ≠ [] := by
      unfold push
      split_ifs
      · exact ⟨by simp, fun p hp => h p (Option.mem_toList.mp hp)⟩
      · exact ⟨by cases pending <;> simp, by simp⟩
    obtain ⟨hval, hlog⟩ := ih hpush.1
    refine ⟨hval, fun p hp => ?_⟩
    rcases List.mem_append.mp hp with hp | hp
    · exact hpush.2 p hp
    · exact hlog p hp

/-- A header with fields that are none. -/
def IsRecord (header : α → Bool) (r : List α) : Prop :=
  ∃ h fields, r = h :: fields ∧ header h = true ∧ ∀ a ∈ fields, header a = false

theorem countP_of_no_header {s : List α} (h : ∀ a ∈ s, header a = false) :
    s.countP header = 0 :=
  List.countP_eq_zero.mpr fun a ha => by simp [h a ha]

theorem IsRecord.countP {r : List α} (h : IsRecord header r) : r.countP header = 1 := by
  obtain ⟨a, fields, rfl, ha, hfields⟩ := h
  simp [ha, countP_of_no_header hfields]

theorem feed_record (pending : Option (List α)) {r : List α} (h : IsRecord header r) :
    feed header pending r = ⟨some r, pending.toList⟩ := by
  obtain ⟨a, fields, rfl, ha, hfields⟩ := h
  have hpush : push header pending a = ⟨some [a], pending.toList⟩ := by rw [push, if_pos ha]
  rw [feed, hpush, feed_log_of_no_header _ hfields, feed_val_of_no_header _ hfields]
  simp

theorem feed_log_of_stopped (p : List α) {records : List (List α)}
    (h : ∀ r ∈ records, IsRecord header r) {s : List α} (hs : s <+: records.flatten) :
    (feed header (some p) s).log = (p :: records).take (s.countP header) := by
  induction records generalizing p s with
  | nil =>
    obtain rfl := List.prefix_nil.mp hs
    rfl
  | cons r records ih =>
    have hr := h r List.mem_cons_self
    rw [List.flatten_cons] at hs
    rcases List.prefix_or_prefix_of_prefix hs (List.prefix_append r records.flatten) with
      hfront | ⟨t, rfl⟩
    · -- Of the record there is at most the header with some fields.
      obtain ⟨a, fields, rfl, ha, hfields⟩ := hr
      rcases s with _ | ⟨b, s⟩
      · rfl
      obtain ⟨rfl, hfront'⟩ := List.cons_prefix_cons.mp hfront
      have hno : ∀ c ∈ s, header c = false := fun c hc => hfields c (hfront'.subset hc)
      simp [feed, push, ha, feed_log_of_no_header _ hno, countP_of_no_header hno]
    · have hrest := ih r (fun r' hr' => h r' (List.mem_cons_of_mem _ hr'))
        ((List.prefix_append_right_inj r).mp hs)
      rw [(feed_append _ _ _).2, feed_record _ hr, hrest, List.countP_append, hr.countP,
        Nat.add_comm, List.take_succ_cons]
      rfl

theorem segments_of_stopped {records : List (List α)} (h : ∀ r ∈ records, IsRecord header r)
    {s : List α} (hs : s <+: records.flatten) :
    segments header s = records.take (s.countP header - 1) := by
  rcases s with _ | ⟨a, s⟩
  · rfl
  · have ha : header a = true := by
      rcases records with _ | ⟨r, records⟩
      · exact absurd hs (by simp)
      · obtain ⟨b, fields, rfl, hb, -⟩ := h r List.mem_cons_self
        obtain ⟨rfl, -⟩ := List.cons_prefix_cons.mp hs
        exact hb
    have hfirst : (feed header (some []) (a :: s)).log = [] :: segments header (a :: s) := by
      simp [segments, feed, push, ha]
    have hlog := feed_log_of_stopped [] h hs
    rw [hfirst, List.countP_cons_of_pos ha, List.take_succ_cons] at hlog
    rw [List.countP_cons_of_pos ha]
    exact (List.cons.inj hlog).2

theorem segments_records (records : List (List α)) (h : ∀ r ∈ records, IsRecord header r) :
    segments header records.flatten = records.dropLast := by
  have hcount : records.flatten.countP header = records.length := by
    have hone : records.map (List.countP header) = records.map fun _ => 1 :=
      List.map_congr_left fun r hr => (h r hr).countP
    simp [List.countP_flatten, hone]
  rw [segments_of_stopped h List.prefix_rfl, hcount, List.dropLast_eq_take]

theorem drop_take_append_drop_take (l : List α) {i j k : ℕ} (hij : i ≤ j) (hjk : j ≤ k) :
    (l.take j).drop i ++ (l.take k).drop j = (l.take k).drop i := by
  have hlength : k - i = j - i + (k - j) := by omega
  have hdrop : l.drop j = (l.drop i).drop (j - i) := by
    rw [List.drop_drop, Nat.add_sub_cancel' hij]
  rw [List.drop_take, List.drop_take, List.drop_take, hlength, List.take_add, hdrop]

/-- The stream from its first header on, cut before each header. -/
def sections (header : α → Bool) : List α → List (List α)
  | [] => []
  | a :: s =>
    if header a then (a :: s.takeWhile (!header ·)) :: sections header s else sections header s

theorem feed_some (p s : List α) :
    feed header (some p) s =
      ⟨((p ++ s.takeWhile (!header ·)) :: sections header s).getLast?,
        ((p ++ s.takeWhile (!header ·)) :: sections header s).dropLast⟩ := by
  induction s generalizing p with
  | nil => simp [feed, sections]
  | cons a s ih =>
    cases ha : header a with
    | true => simp [feed, push, sections, ha, ih]
    | false => simp [feed, push, sections, ha, ih]

theorem feed_none (s : List α) :
    feed header none s = ⟨(sections header s).getLast?, (sections header s).dropLast⟩ := by
  induction s with
  | nil => rfl
  | cons a s ih =>
    cases ha : header a with
    | true => simp [feed, push, sections, ha, feed_some]
    | false => simp [feed, push, sections, ha, ih]

theorem segments_eq_dropLast (s : List α) :
    segments header s = (sections header s).dropLast := by
  rw [segments, feed_none]

theorem length_sections (s : List α) : (sections header s).length = s.countP header := by
  induction s with
  | nil => rfl
  | cons a s ih =>
    rw [sections, List.countP_cons]
    split_ifs
    · rw [List.length_cons, ih]
    · rw [ih, Nat.add_zero]

theorem takeWhile_append_sections (s : List α) :
    s.takeWhile (!header ·) ++ (sections header s).flatten = s := by
  induction s with
  | nil => rfl
  | cons a s ih =>
    cases ha : header a with
    | true => simp [sections, ha, ih]
    | false => simp [sections, ha, ih]

theorem flatten_sections_suffix (s : List α) : (sections header s).flatten <:+ s :=
  ⟨s.takeWhile (!header ·), takeWhile_append_sections s⟩

theorem flatten_sections {s : List α} (h : ∀ a ∈ s.head?, header a = true) :
    (sections header s).flatten = s := by
  have hnone : s.takeWhile (!header ·) = [] := by
    cases s with
    | nil => rfl
    | cons a s => simp [h a rfl]
  calc (sections header s).flatten = s.takeWhile (!header ·) ++ (sections header s).flatten := by
        rw [hnone, List.nil_append]
    _ = s := takeWhile_append_sections s

theorem mem_of_mem_segments {s p : List α} {a : α} (hp : p ∈ segments header s) (ha : a ∈ p) :
    a ∈ s := by
  rw [segments_eq_dropLast] at hp
  exact (flatten_sections_suffix s).subset
    (List.mem_flatten.mpr ⟨p, List.mem_of_mem_dropLast hp, ha⟩)

theorem sections_append {a : α} (ha : header a = true) (s t : List α) :
    sections header (s ++ a :: t) = sections header s ++ sections header (a :: t) := by
  have hstop : ∀ s : List α, (s ++ a :: t).takeWhile (!header ·) = s.takeWhile (!header ·) := by
    intro s
    induction s with
    | nil => simp [ha]
    | cons b s ih =>
      cases hb : header b with
      | true => simp [hb]
      | false => simp [hb, ih]
  induction s with
  | nil => rfl
  | cons b s ih =>
    cases hb : header b with
    | true => simp [sections, hb, ih, hstop]
    | false => simp [sections, hb, ih]

theorem segments_append {a : α} (ha : header a = true) (s t : List α) :
    segments header (s ++ a :: t) = sections header s ++ segments header (a :: t) := by
  have hne : sections header (a :: t) ≠ [] := by simp [sections, ha]
  rw [segments_eq_dropLast, segments_eq_dropLast, sections_append ha,
    List.dropLast_append_of_ne_nil hne]

theorem segments_eq_nil_iff {a : α} (ha : header a = true) (t : List α) :
    segments header (a :: t) = [] ↔ t.countP header = 0 := by
  rw [segments_eq_dropLast, ← List.length_eq_zero_iff, List.length_dropLast, length_sections,
    List.countP_cons_of_pos ha, Nat.add_sub_cancel]

/-- Where no header is missing, the same is given out exactly when the sections up to the last
header are the same and no header comes behind it. -/
theorem segments_eq_sections_iff {front front' back : List α} {a : α} (ha : header a = true)
    (hcount : front.countP header ≤ front'.countP header) :
    segments header (front' ++ a :: back) = sections header front ↔
      sections header front' = sections header front ∧ back.countP header = 0 := by
  rw [segments_append ha, ← segments_eq_nil_iff ha]
  constructor
  · intro h
    have hlength := congrArg List.length h
    rw [List.length_append, length_sections, length_sections] at hlength
    have hnil : segments header (a :: back) = [] := List.eq_nil_of_length_eq_zero (by omega)
    rw [hnil, List.append_nil] at h
    exact ⟨h, hnil⟩
  · rintro ⟨h, hnil⟩
    rw [h, hnil, List.append_nil]

section chunks
variable (lost : α → Bool)

/-- What is left of a chunk: its last token may be lost. -/
def keepChunk (c : List α) : List α := if c.getLast?.any lost then c.dropLast else c

/-- The last chunk may lose two tokens. -/
def keepLast (c : List α) : List α :=
  if c.getLast?.any lost then keepChunk lost c.dropLast else c

theorem keepChunk_cons_cons (a b : α) (c : List α) :
    keepChunk lost (a :: b :: c) = a :: keepChunk lost (b :: c) := by
  unfold keepChunk
  rw [List.getLast?_cons_cons, List.dropLast_cons_cons]
  split_ifs <;> rfl

theorem keepChunk_concat (c : List α) (a : α) :
    keepChunk lost (c ++ [a]) = if lost a then c else c ++ [a] := by
  rw [keepChunk, List.getLast?_concat, List.dropLast_concat, Option.any_some]

theorem keepLast_concat (c : List α) (a : α) :
    keepLast lost (c ++ [a]) = if lost a then keepChunk lost c else c ++ [a] := by
  rw [keepLast, List.getLast?_concat, List.dropLast_concat, Option.any_some]

theorem keepChunk_of_kept {c : List α} (h : ∀ a ∈ c, lost a = false) : keepChunk lost c = c := by
  rcases List.eq_nil_or_concat c with rfl | ⟨front, a, rfl⟩
  · rfl
  · have ha := h a (by simp)
    simp [keepChunk_concat, ha]

theorem keepLast_of_kept {c : List α} (h : ∀ a ∈ c, lost a = false) : keepLast lost c = c := by
  rcases List.eq_nil_or_concat c with rfl | ⟨front, a, rfl⟩
  · rfl
  · have ha := h a (by simp)
    simp [keepLast_concat, ha]

theorem keepChunk_spec (c : List α) :
    (c.getLast?.any lost = false ∧ keepChunk lost c = c) ∨
      ∃ a, lost a = true ∧ c = keepChunk lost c ++ [a] ∧ c.getLast?.any lost = true := by
  rcases List.eq_nil_or_concat c with rfl | ⟨front, a, rfl⟩
  · exact Or.inl ⟨rfl, rfl⟩
  · rw [List.concat_eq_append, keepChunk_concat, List.getLast?_concat, Option.any_some]
    cases ha : lost a with
    | false => exact Or.inl ⟨rfl, rfl⟩
    | true => exact Or.inr ⟨a, ha, rfl, rfl⟩

theorem keepLast_spec (c : List α) :
    ∃ d, c = keepLast lost c ++ d ∧ ∀ a ∈ d, lost a = true := by
  rcases List.eq_nil_or_concat c with rfl | ⟨front, a, rfl⟩
  · exact ⟨[], rfl, by simp⟩
  · rw [List.concat_eq_append, keepLast_concat]
    cases ha : lost a with
    | false => exact ⟨[], by simp, by simp⟩
    | true =>
      rcases keepChunk_spec lost front with ⟨-, hkeep⟩ | ⟨b, hb, hkeep, -⟩
      · exact ⟨[a], by simp [hkeep], by simpa using ha⟩
      · refine ⟨[b, a], ?_, by simp [hb, ha]⟩
        rw [if_pos rfl]
        nth_rewrite 1 [hkeep]
        simp

variable {lost} (hheader : ∀ a, header a = true → lost a = false)
include hheader

theorem no_header_of_lost {d : List α} (h : ∀ a ∈ d, lost a = true) :
    ∀ a ∈ d, header a = false := by
  intro a ha
  by_contra hhead
  have hlost := hheader a (Bool.not_eq_false _ ▸ hhead)
  rw [h a ha] at hlost
  exact Bool.noConfusion hlost

theorem any_header_of_lost {d : List α} (h : ∀ a ∈ d, lost a = true) : d.any header = false := by
  rw [List.any_eq_false]
  intro a ha
  rw [no_header_of_lost hheader h a ha]
  exact Bool.false_ne_true

theorem any_header_keepLast (c : List α) : (keepLast lost c).any header = c.any header := by
  obtain ⟨d, hc, hd⟩ := keepLast_spec lost c
  nth_rewrite 2 [hc]
  rw [List.any_append, any_header_of_lost hheader hd, Bool.or_false]

end chunks
end Arm2D.Library
