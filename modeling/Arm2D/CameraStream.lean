import Arm2D.Library.Segments
import Arm2D.WriterThread

/-! # How the camera's stream is cut

The stream is a sequence of tokens with commas between them, and is read in chunks. Of a
chunk `run` takes what comes before a NUL, without the white space at both ends, and it
loses a last token that is then empty. It gives out the segments of the tokens taken. -/
namespace Arm2D
open Library

/-- What stands between two commas. -/
structure Token where
  text : Str
  comma : ',' ∉ text

namespace Token

theorem text_injective : Function.Injective text := by
  rintro ⟨s, -⟩ ⟨t, -⟩ rfl
  rfl

def header (t : Token) : Bool := WriterThread.isHeader t.text

def empty (t : Token) : Bool := t.text.isEmpty

theorem empty_of_header (t : Token) (h : t.header = true) : t.empty = false := by
  rw [empty, List.isEmpty_eq_false_iff]
  intro hnil
  rw [header, hnil] at h
  exact Bool.noConfusion h

theorem text_of_empty {t : Token} (h : t.empty = true) : t.text = [] :=
  List.isEmpty_iff.mp h

theorem find_comma (t : Token) (s : Str) :
    find [','] (t.text ++ ',' :: s) 0 = some t.text.length := by
  simpa using find_append [] t.comma s

structure Clean (t : Token) : Prop where
  ne_nil : t.text ≠ []
  space : ∀ c ∈ t.text, isspace c = false
  nul : '\x00' ∉ t.text

theorem Clean.empty {t : Token} (h : t.Clean) : t.empty = false :=
  List.isEmpty_eq_false_iff.mpr h.ne_nil

/-- What stands behind the last comma of a chunk that ends with one. -/
def nothing : Token := ⟨[], List.not_mem_nil⟩

/-- The token up to its first NUL. -/
def cut (t : Token) : Token := ⟨cStr t.text, fun h => t.comma (List.takeWhile_subset _ h)⟩

def trimLeft (t : Token) : Token :=
  ⟨t.text.dropWhile isspace, fun h => t.comma (List.dropWhile_subset _ h)⟩

def trimRight (t : Token) : Token :=
  ⟨t.text.rdropWhile isspace, fun h => t.comma ((List.rdropWhile_prefix _ _).subset h)⟩

end Token

/-- Tokens with commas between them. -/
def joined (ts : List Token) : Str := [','].intercalate (ts.map Token.text)

@[simp] lemma joined_nil : joined [] = [] := rfl

@[simp] lemma joined_singleton (t : Token) : joined [t] = t.text := List.intercalate_singleton

lemma joined_cons_cons (t u : Token) (ts : List Token) :
    joined (t :: u :: ts) = t.text ++ ',' :: joined (u :: ts) := by
  rw [joined, List.map_cons, List.map_cons, List.intercalate_cons_cons, List.append_assoc]
  rfl

lemma joined_cons (t : Token) {ts : List Token} (h : ts ≠ []) :
    joined (t :: ts) = t.text ++ ',' :: joined ts := by
  obtain ⟨u, ts, rfl⟩ := List.exists_cons_of_ne_nil h
  exact joined_cons_cons t u ts

theorem joined_append {s t : List Token} (hs : s ≠ []) (ht : t ≠ []) :
    joined (s ++ t) = joined s ++ ',' :: joined t := by
  obtain ⟨u, t, rfl⟩ := List.exists_cons_of_ne_nil ht
  induction s with
  | nil => exact absurd rfl hs
  | cons a s ih =>
    cases s with
    | nil => rw [List.singleton_append, joined_cons_cons, joined_singleton]
    | cons b s =>
      have ih := ih (List.cons_ne_nil b s)
      rw [List.cons_append] at ih
      rw [List.cons_append, List.cons_append, joined_cons_cons, joined_cons_cons, ih,
        List.append_assoc, List.cons_append]

lemma joined_concat {ts : List Token} (h : ts ≠ []) (t : Token) :
    joined (ts ++ [t]) = joined ts ++ ',' :: t.text := by
  rw [joined_append h (List.cons_ne_nil t []), joined_singleton]

theorem mem_joined {ts : List Token} {c : Char} (h : c ∈ joined ts) :
    c = ',' ∨ ∃ t ∈ ts, c ∈ t.text := by
  induction ts with
  | nil => exact absurd h List.not_mem_nil
  | cons t ts ih =>
    cases ts with
    | nil =>
      rw [joined_singleton] at h
      exact Or.inr ⟨t, List.mem_cons_self, h⟩
    | cons u ts =>
      rw [joined_cons_cons, List.mem_append, List.mem_cons] at h
      rcases h with h | rfl | h
      · exact Or.inr ⟨t, List.mem_cons_self, h⟩
      · exact Or.inl rfl
      · rcases ih h with h | ⟨v, hv, h⟩
        · exact Or.inl h
        · exact Or.inr ⟨v, List.mem_cons_of_mem _ hv, h⟩

theorem mem_joined_of_mem {ts : List Token} {t : Token} (ht : t ∈ ts) {c : Char}
    (hc : c ∈ t.text) : c ∈ joined ts := by
  obtain ⟨u, v, rfl⟩ := List.append_of_mem ht
  have hback : c ∈ joined (t :: v) := by
    cases v with
    | nil => simpa using hc
    | cons b v =>
      rw [joined_cons_cons]
      exact List.mem_append_left _ hc
  cases u with
  | nil => exact hback
  | cons a u =>
    rw [joined_append (List.cons_ne_nil a u) (List.cons_ne_nil t v)]
    exact List.mem_append_right _ (List.mem_cons_of_mem _ hback)

theorem getLast?_joined (ts : List Token) {t : Token} (h : t.text ≠ []) :
    (joined (ts ++ [t])).getLast? = t.text.getLast? := by
  cases ts with
  | nil => rw [List.nil_append, joined_singleton]
  | cons a ts =>
    rw [joined_concat (List.cons_ne_nil a ts), List.getLast?_append, List.getLast?_cons,
      List.getLast?_eq_some_getLast h]
    rfl

theorem isspace_joined {ts : List Token} (h : ∀ t ∈ ts, t.Clean) {c : Char}
    (hc : c ∈ joined ts) : isspace c = false := by
  rcases mem_joined hc with rfl | ⟨t, ht, hc⟩
  · decide
  · exact (h t ht).space c hc

theorem nul_notMem_joined {ts : List Token} (h : ∀ t ∈ ts, '\x00' ∉ t.text) :
    '\x00' ∉ joined ts := by
  intro hc
  rcases mem_joined hc with hc | ⟨t, ht, hc⟩
  · exact absurd hc (by decide)
  · exact h t ht hc

def cutTokens : List Token → List Token
  | [] => []
  | t :: ts => if '\x00' ∈ t.text then [t.cut] else t :: cutTokens ts

theorem cutTokens_ne_nil {ts : List Token} (h : ts ≠ []) : cutTokens ts ≠ [] := by
  obtain ⟨t, ts, rfl⟩ := List.exists_cons_of_ne_nil h
  rw [cutTokens]
  split_ifs <;> simp

theorem joined_cutTokens (ts : List Token) : joined (cutTokens ts) = cStr (joined ts) := by
  induction ts with
  | nil => rfl
  | cons t ts ih =>
    rw [cutTokens]
    cases ts with
    | nil =>
      split_ifs with hnul
      · simp [Token.cut]
      · simp [cutTokens, cStr_of_notMem hnul]
    | cons u ts =>
      have hne : u :: ts ≠ [] := List.cons_ne_nil u ts
      rw [joined_cons t hne]
      split_ifs with hnul
      · rw [cStr_append_of_mem hnul, joined_singleton]
        rfl
      · rw [joined_cons t (cutTokens_ne_nil hne), ih, cStr_append_of_notMem hnul]
        rfl

theorem dropWhile_comma (s t : Str) :
    (s ++ ',' :: t).dropWhile isspace = s.dropWhile isspace ++ ',' :: t := by
  rw [List.dropWhile_append]
  split_ifs with h
  · rw [List.isEmpty_iff.mp h]
    rfl
  · rfl

theorem joined_trimHead (ts : List Token) :
    joined (ts.modifyHead Token.trimLeft) = (joined ts).dropWhile isspace := by
  cases ts with
  | nil => rfl
  | cons t ts =>
    cases ts with
    | nil => simp [Token.trimLeft]
    | cons u ts =>
      rw [List.modifyHead_cons, joined_cons_cons, joined_cons_cons, dropWhile_comma]
      rfl

theorem joined_trimLast (ts : List Token) :
    joined (ts.modifyLast Token.trimRight) = (joined ts).rdropWhile isspace := by
  rcases List.eq_nil_or_concat ts with rfl | ⟨ts, t, rfl⟩
  · rfl
  · rw [List.concat_eq_append, List.modifyLast_concat]
    by_cases hts : ts = []
    · rw [hts, List.nil_append, List.nil_append, joined_singleton, joined_singleton]
      rfl
    · rw [joined_concat hts, joined_concat hts, rdropWhile_of_neg (by decide)]
      rfl

/-- What `trim_string` leaves of a chunk. -/
def trimmedTokens (ts : List Token) : List Token :=
  ((cutTokens ts).modifyHead Token.trimLeft).modifyLast Token.trimRight

theorem joined_trimmedTokens (ts : List Token) :
    joined (trimmedTokens ts) = trimString (joined ts) := by
  rw [trimmedTokens, joined_trimLast, joined_trimHead, joined_cutTokens, trimString, trim]

/-- The tokens that `run` takes of a chunk. -/
def arrive (ts : List Token) : List Token := keepLast Token.empty (trimmedTokens ts)

theorem splitOn_joined {ts : List Token} (h : ts ≠ []) :
    (joined ts).splitOn ',' = ts.map Token.text := by
  refine List.splitOn_intercalate ',' (fun l hl => ?_) (by simpa using h)
  obtain ⟨t, -, rfl⟩ := List.mem_map.mp hl
  exact t.comma

theorem map_joined_inj {l l' : List (List Token)} (hl : ∀ s ∈ l, s ≠ []) (hl' : ∀ s ∈ l', s ≠ [])
    (h : l.map joined = l'.map joined) : l = l' := by
  have hsplit : ∀ k : List (List Token), (∀ s ∈ k, s ≠ []) →
      (k.map joined).map (List.splitOn ',') = k.map (List.map Token.text) := by
    intro k hk
    rw [List.map_map]
    exact List.map_congr_left (fun s hs => splitOn_joined (hk s hs))
  have htexts := congrArg (List.map (List.splitOn ',')) h
  rw [hsplit l hl, hsplit l' hl'] at htexts
  exact List.map_injective_iff.mpr (List.map_injective_iff.mpr Token.text_injective) htexts

namespace WriterThread

def takeTokens : WriterThread → List Token → Logged Str WriterThread
  | w, [] => pure w
  | w, t :: ts =>
    ⟨(takeTokens (takeToken w t.text).val ts).val,
      (takeToken w t.text).log ++ (takeTokens (takeToken w t.text).val ts).log⟩

theorem takeTokens_append (w : WriterThread) (s t : List Token) :
    (takeTokens w (s ++ t)).val = (takeTokens (takeTokens w s).val t).val ∧
      (takeTokens w (s ++ t)).log =
        (takeTokens w s).log ++ (takeTokens (takeTokens w s).val t).log := by
  induction s generalizing w with
  | nil => exact ⟨rfl, rfl⟩
  | cons a s ih =>
    obtain ⟨hval, hlog⟩ := ih (takeToken w a.text).val
    refine ⟨hval, ?_⟩
    rw [List.cons_append, takeTokens, takeTokens, hlog]
    exact (List.append_assoc _ _ _).symm

theorem tokenLoop_of_ne_nil (w : WriterThread) (token rest : Str) {data : Str} (h : data ≠ [])
    (htoken : (match find [','] data 0 with
      | none => data
      | some i => data.take i) = token)
    (hrest : (if token = data then [] else data.drop ((find [','] data 0).getD 0 + 1)) = rest) :
    tokenLoop w data = ⟨(tokenLoop (takeToken w token).val rest).val,
      (takeToken w token).log ++ (tokenLoop (takeToken w token).val rest).log⟩ := by
  subst htoken hrest
  exact (tokenLoop.eq_def w data).trans (dif_neg h)

theorem tokenLoop_joined (w : WriterThread) (c : List Token) :
    tokenLoop w (joined c) = takeTokens w (keepChunk Token.empty c) := by
  induction c generalizing w with
  | nil =>
    rw [joined_nil, tokenLoop, dif_pos rfl]
    rfl
  | cons t c ih =>
    cases c with
    | nil =>
      rw [joined_singleton]
      cases ht : t.empty with
      | true =>
        have hkeep : keepChunk Token.empty [t] = [] := by simp [keepChunk, ht]
        rw [Token.text_of_empty ht, tokenLoop, dif_pos rfl, hkeep]
        rfl
      | false =>
        have hkeep : keepChunk Token.empty [t] = [t] := by simp [keepChunk, ht]
        have hnone : find [','] t.text 0 = none := by
          rw [find, if_pos (Nat.zero_le _), List.drop_zero, findFirst_of_notMem [] t.comma]
          rfl
        have hne : t.text ≠ [] := List.isEmpty_eq_false_iff.mp ht
        rw [tokenLoop_of_ne_nil w t.text [] hne (by rw [hnone]) (if_pos rfl),
          tokenLoop, dif_pos rfl, hkeep]
        rfl
    | cons u c =>
      have hcomma := t.find_comma (joined (u :: c))
      have hne : t.text ≠ t.text ++ ',' :: joined (u :: c) := by
        intro h
        have hlen := congrArg List.length h
        rw [List.length_append, List.length_cons] at hlen
        omega
      rw [joined_cons_cons, keepChunk_cons_cons, takeTokens, ← ih,
        tokenLoop_of_ne_nil w t.text (joined (u :: c)) (by simp)]
      · rw [hcomma]
        exact List.take_left
      · rw [if_neg hne, hcomma]
        simp

theorem tokenLoop_chunk (w : WriterThread) (c : List Token) :
    (if joined c = [] then pure w
      else tokenLoop w (if (joined c).getLast? = some ',' then (joined c).dropLast else joined c)) =
      takeTokens w (keepLast Token.empty c) := by
  rcases List.eq_nil_or_concat c with rfl | ⟨front, t, rfl⟩
  · rfl
  rw [List.concat_eq_append]
  cases ht : t.empty with
  | true =>
    rw [keepLast_concat, ht, if_pos rfl]
    cases front with
    | nil =>
      rw [List.nil_append, joined_singleton, Token.text_of_empty ht, if_pos rfl]
      rfl
    | cons a front =>
      rw [joined_concat (List.cons_ne_nil a front), Token.text_of_empty ht, if_neg (by simp),
        List.getLast?_concat, if_pos rfl, List.dropLast_concat]
      exact tokenLoop_joined w _
  | false =>
    have hlast := getLast?_joined front (List.isEmpty_eq_false_iff.mp ht)
    have hcomma : (joined (front ++ [t])).getLast? ≠ some ',' := by
      rw [hlast]
      exact fun h => t.comma (List.mem_of_getLast? h)
    have hnil : joined (front ++ [t]) ≠ [] := by
      intro h
      rw [h, List.getLast?_nil, eq_comm, List.getLast?_eq_none_iff] at hlast
      exact List.isEmpty_eq_false_iff.mp ht hlast
    rw [if_neg hnil, if_neg hcomma, tokenLoop_joined, keepChunk_concat, keepLast_concat, ht]
    rfl

theorem runChunk_joined (w : WriterThread) (ts : List Token) :
    runChunk w (joined ts) = takeTokens w (arrive ts) := by
  rw [arrive, ← tokenLoop_chunk, joined_trimmedTokens]
  rfl

theorem runChunk_clean (w : WriterThread) {c : List Token} (h : ∀ t ∈ c, t.Clean) (comma : Bool) :
    runChunk w (joined c ++ if comma then [','] else []) = takeTokens w c := by
  have hfull : ∀ t ∈ c, t.empty = false := fun t ht => (h t ht).empty
  have htrim : ∀ s : Str, (∀ a ∈ s, a = ',') →
      trimString (joined c ++ s) = joined c ++ s := by
    intro s hs
    refine trimString_of_clean (fun hnul => ?_) (fun a ha => ?_)
    · rcases List.mem_append.mp hnul with hnul | hnul
      · exact nul_notMem_joined (fun t ht => (h t ht).nul) hnul
      · exact absurd (hs _ hnul) (by decide)
    · rcases List.mem_append.mp ha with ha | ha
      · exact isspace_joined h ha
      · rw [hs a ha]
        decide
  unfold runChunk
  cases comma with
  | true =>
    rw [if_pos rfl]
    simp only [htrim [','] (by simp)]
    rw [if_neg (by simp), List.getLast?_concat, if_pos rfl, List.dropLast_concat,
      tokenLoop_joined, keepChunk_of_kept _ hfull]
  | false =>
    have hbody := htrim [] (by simp)
    rw [List.append_nil] at hbody
    rw [if_neg Bool.false_ne_true, List.append_nil]
    simp only [hbody]
    rw [tokenLoop_chunk, keepLast_of_kept _ hfull]

end WriterThread

/-- The texts of the chunks: all but the last end with the comma behind which they are
cut. -/
def chunkTexts : List (List Token) → List Str
  | [] => []
  | [c] => [joined c]
  | c :: c' :: chunks => (joined c ++ [',']) :: chunkTexts (c' :: chunks)

/-- The tokens that `run` takes of the chunks; behind the comma of one comes nothing. -/
def arrivals : List (List Token) → List Token
  | [] => []
  | [c] => arrive c
  | c :: c' :: chunks => arrive (c ++ [Token.nothing]) ++ arrivals (c' :: chunks)

namespace WriterThread

theorem run_chunkTexts (w : WriterThread) {chunks : List (List Token)}
    (h : ∀ c ∈ chunks, c ≠ []) : run w (chunkTexts chunks) = takeTokens w (arrivals chunks) := by
  induction chunks generalizing w with
  | nil => rfl
  | cons c chunks ih =>
    cases chunks with
    | nil =>
      rw [chunkTexts, run, runChunk_joined, arrivals]
      simp only [run, Logged.pure_val, Logged.pure_log, List.append_nil]
    | cons c' chunks =>
      have hcomma : joined c ++ [','] = joined (c ++ [Token.nothing]) :=
        (joined_concat (h c List.mem_cons_self) Token.nothing).symm
      obtain ⟨hval, hlog⟩ := takeTokens_append w (arrive (c ++ [Token.nothing]))
        (arrivals (c' :: chunks))
      rw [chunkTexts, run, hcomma, runChunk_joined, arrivals,
        ih _ fun d hd => h d (List.mem_cons_of_mem _ hd), ← hval, ← hlog]

/-- The thread with this segment pending. -/
def holding : Option (List Token) → WriterThread
  | none => construct
  | some p => ⟨joined p, true⟩

/-- One token: the thread does on texts what the segmentation does on tokens. -/
theorem takeToken_push {pending : Option (List Token)} (h : ∀ p ∈ pending, p ≠ []) (t : Token) :
    takeToken (holding pending) t.text =
      ⟨holding (push Token.header pending t).val,
        (push Token.header pending t).log.map joined⟩ := by
  have hheader : isHeader t.text = t.header := rfl
  rw [takeToken, push, hheader]
  cases t.header with
  | true =>
    rw [if_pos rfl, if_pos rfl]
    cases pending with
    | none => simp [holding, construct]
    | some p => simp [holding]
  | false =>
    rw [if_neg Bool.false_ne_true, if_neg Bool.false_ne_true]
    cases pending with
    | none => rfl
    | some p =>
      have hp : p ≠ [] := h p rfl
      simp only [holding, if_true, Option.map_some, joined_concat hp]
      rfl

theorem takeTokens_feed {pending : Option (List Token)} (h : ∀ p ∈ pending, p ≠ [])
    (ts : List Token) :
    takeTokens (holding pending) ts =
      ⟨holding (feed Token.header pending ts).val,
        (feed Token.header pending ts).log.map joined⟩ := by
  induction ts generalizing pending with
  | nil => rfl
  | cons t ts ih =>
    have hpush : ∀ p ∈ (push Token.header pending t).val, p ≠ [] :=
      (feed_ne_nil h [t]).1
    rw [takeTokens, takeToken_push h t, ih hpush, feed, List.map_append]

/-- The records that `run` emits are the segments of the tokens that it takes. -/
theorem run_emits {chunks : List (List Token)} (h : ∀ c ∈ chunks, c ≠ []) :
    (run construct (chunkTexts chunks)).log =
      (segments Token.header (arrivals chunks)).map joined := by
  rw [run_chunkTexts construct h]
  have hnone : ∀ p ∈ (none : Option (List Token)), p ≠ [] := by simp
  exact congrArg Logged.log (takeTokens_feed hnone _)

end WriterThread
end Arm2D
