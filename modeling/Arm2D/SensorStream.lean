import Arm2D.CameraStream

/-! # The sensor stream, read by read

Here a read is trimmed before it is cut, and blank ones stand between the others. -/
namespace Arm2D
open Library WriterThread

/-- What one read delivers: some tokens with white space around them, and maybe a comma
behind the last. -/
structure Delivery where
  before : Str
  tokens : List Token
  comma : Bool
  after : Str
  before_space : ∀ c ∈ before, isspace c = true
  after_space : ∀ c ∈ after, isspace c = true
  tokens_ne_nil : tokens ≠ []
  clean : ∀ t ∈ tokens, t.Clean

namespace Delivery

def body (d : Delivery) : Str := joined d.tokens ++ if d.comma then [','] else []

def text (d : Delivery) : Str := d.before ++ d.body ++ d.after

theorem body_clean (d : Delivery) : '\x00' ∉ d.body ∧ ∀ c ∈ d.body, isspace c = false := by
  have hcomma : ∀ c ∈ (if d.comma then [','] else [] : Str), c = ',' := by
    cases d.comma <;> simp
  constructor
  · intro h
    rcases List.mem_append.mp h with h | h
    · exact nul_notMem_joined (fun t ht => (d.clean t ht).nul) h
    · exact absurd (hcomma _ h) (by decide)
  · intro c hc
    rcases List.mem_append.mp hc with hc | hc
    · exact isspace_joined d.clean hc
    · rw [hcomma c hc]
      decide

theorem trimString_text (d : Delivery) : trimString d.text = d.body := by
  obtain ⟨hnul, hspace⟩ := d.body_clean
  have hpad : ∀ s : Str, (∀ c ∈ s, isspace c = true) → '\x00' ∉ s := by
    intro s hs hc
    exact absurd (hs _ hc) (by decide)
  have hcStr : cStr d.text = d.text := by
    apply cStr_of_notMem
    simp [text, hpad _ d.before_space, hnul, hpad _ d.after_space]
  rw [trimString, hcStr]
  have hbody : trim d.body = d.body := trim_of_trimmed (trimmed_of_clean hspace)
  exact (trim_pad d.before_space d.after_space d.body).trans hbody

theorem runChunk_text (w : WriterThread) (d : Delivery) :
    runChunk w d.text = takeTokens w d.tokens := by
  obtain ⟨hnul, hspace⟩ := d.body_clean
  have hbody : runChunk w d.text = runChunk w d.body := by
    rw [runChunk, runChunk, d.trimString_text, trimString_of_clean hnul hspace]
  exact hbody.trans (runChunk_clean w d.clean d.comma)

end Delivery

/-- What `wait_on_data` returns: nothing but white space, or a delivery. -/
inductive Read where
  | blank (space : Str) (h : ∀ c ∈ space, isspace c = true)
  | delivery (d : Delivery)

namespace Read

def text : Read → Str
  | blank space _ => space
  | delivery d => d.text

def tokens : Read → List Token
  | blank _ _ => []
  | delivery d => d.tokens

theorem runChunk_text (w : WriterThread) (r : Read) :
    runChunk w r.text = takeTokens w r.tokens := by
  cases r with
  | delivery d => exact d.runChunk_text w
  | blank space h =>
    have hnul : '\x00' ∉ space := fun hc => absurd (h _ hc) (by decide)
    have htrim : trimString space = [] := by
      rw [trimString, cStr_of_notMem hnul, trim_of_space h]
    simp [runChunk, text, tokens, htrim, takeTokens]

end Read

namespace WriterThread

theorem run_reads (w : WriterThread) (reads : List Read) :
    run w (reads.map Read.text) = takeTokens w (reads.flatMap Read.tokens) := by
  induction reads generalizing w with
  | nil => rfl
  | cons r reads ih =>
    obtain ⟨hval, hlog⟩ := takeTokens_append w r.tokens (reads.flatMap Read.tokens)
    rw [List.map_cons, run, r.runChunk_text, ih, List.flatMap_cons, ← hval, ← hlog]

/-- However the stream is cut into reads, the thread gives out the sections of the whole
token list except the last one, which stays pending. -/
theorem run_reads_sections (reads : List Read) :
    (run construct (reads.map Read.text)).log =
        (sections Token.header (reads.flatMap Read.tokens)).dropLast.map joined ∧
      (run construct (reads.map Read.text)).val =
        holding (sections Token.header (reads.flatMap Read.tokens)).getLast? := by
  have hnone : ∀ p ∈ (none : Option (List Token)), p ≠ [] := by simp
  have hrun : run construct (reads.map Read.text) =
      takeTokens (holding none) (reads.flatMap Read.tokens) := run_reads construct reads
  rw [hrun, takeTokens_feed hnone, feed_none]
  exact ⟨rfl, rfl⟩

theorem run_cut_at_nul :
    let tokens : List Str := ["MT_a".toList, "x\x00y".toList, "MT_b".toList]
    (∀ t ∈ tokens, t ≠ [] ∧ ',' ∉ t ∧ ∀ c ∈ t, isspace c = false) ∧
      (run construct [[','].intercalate tokens]).log ≠
        [[','].intercalate ["MT_a".toList, "x\x00y".toList]] := by
  let header : Token := ⟨"MT_a".toList, by decide⟩
  let field : Token := ⟨"x".toList, by decide⟩
  have hclean : ∀ t ∈ [header, field], t.Clean := by
    intro t ht
    simp only [List.mem_cons, List.not_mem_nil, or_false] at ht
    rcases ht with rfl | rfl
    · exact ⟨by simp [header], by simp [header, isspace], by simp [header]⟩
    · exact ⟨by simp [field], by simp [field, isspace], by simp [field]⟩
  have hcut : runChunk construct
      ([','].intercalate ["MT_a".toList, "x\x00y".toList, "MT_b".toList]) =
        runChunk construct (joined [header, field] ++ if false then [','] else []) := by
    rw [runChunk, runChunk]
    rfl
  have hlog : (runChunk construct
      (joined [header, field] ++ if false then [','] else [])).log = [] := by
    rw [runChunk_clean construct hclean false]
    rfl
  refine ⟨by simp [isspace], ?_⟩
  rw [run, hcut, hlog]
  decide

end WriterThread
end Arm2D
