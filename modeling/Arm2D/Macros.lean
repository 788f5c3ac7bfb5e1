import Arm2D.Library.Pieces
import Arm2D.MotorDriver
import Arm2D.ToItems

/-! # Macros on the wire

A macro is a list of items joined by `;`. `run_action` writes them to the port one by
one; what stands between them are carriage returns only. -/
namespace Arm2D
open Library

theorem replaceAll_of_findFirst_none {key value s : Str}
    (h : findFirst key s = none) : replaceAll key value s = s := by
  induction s with
  | nil => exact replaceAll_nil
  | cons c s ih =>
    rw [findFirst] at h
    split_ifs at h with hprefix
    rw [List.isPrefixOf_iff_prefix] at hprefix
    rw [replaceAll_cons hprefix, ih (Option.map_eq_none_iff.mp h)]

theorem replaceAll_of_findFirst_some {key value : Str} (hkey : key ≠ []) {s : Str} {i : ℕ}
    (h : findFirst key s = some i) :
    replaceAll key value s =
      s.take i ++ value ++ replaceAll key value (s.drop (i + key.length)) := by
  have hpos := List.length_pos_iff.mpr hkey
  induction s generalizing i with
  | nil =>
    rw [findFirst, if_neg hkey] at h
    cases h
  | cons c s ih =>
    rw [findFirst] at h
    split_ifs at h with hprefix
    · cases h
      obtain ⟨n, hn⟩ := Nat.exists_eq_succ_of_ne_zero hpos.ne'
      rw [replaceAll_prefix_cons (List.isPrefixOf_iff_prefix.mp hprefix), hn]
      simp
    · rw [List.isPrefixOf_iff_prefix] at hprefix
      obtain ⟨j, hj, rfl⟩ := Option.map_eq_some_iff.mp h
      rw [replaceAll_cons hprefix, ih hj, Nat.add_right_comm]
      simp

/-- What is left of `prev` is done, the rest is replaced. -/
theorem substLoop_eq_replaceAll (key value form : Str) (hkey : key ≠ []) (prev : ℕ) :
    substLoop key value form hkey prev =
      form.take prev ++ replaceAll key value (form.drop prev) := by
  induction form, prev using substLoop.induct key value hkey with
  | case1 form prev h =>
    have hrest : replaceAll key value (form.drop prev) = form.drop prev := by
      rw [find] at h
      split_ifs at h with hle
      · exact replaceAll_of_findFirst_none (Option.map_eq_none_iff.mp h)
      · rw [List.drop_eq_nil_of_le (by omega), replaceAll_nil]
    rw [hrest, List.take_append_drop, substLoop]
    split
    · rfl
    · rename_i i hi
      rw [h] at hi
      cases hi
  | case2 form prev i h ih =>
    have hbounds := find_bounds h
    have hstep : substLoop key value form hkey prev = substLoop key value
        (form.take i ++ value ++ form.drop (i + key.length)) hkey (i + value.length) := by
      rw [substLoop]
      split
      · rename_i hnone
        rw [h] at hnone
        cases hnone
      · rename_i j hj
        rw [h] at hj
        cases hj
        rfl
    have hlen : (form.take i ++ value).length = i + value.length := by
      rw [List.length_append, List.length_take]
      omega
    rw [find] at h
    split_ifs at h
    obtain ⟨j, hj, rfl⟩ := Option.map_eq_some_iff.mp h
    rw [hstep, ih, ← hlen, List.take_left, List.drop_left,
      replaceAll_of_findFirst_some hkey hj, List.drop_drop, Nat.add_comm j prev, List.take_add,
      Nat.add_assoc]
    simp only [List.append_assoc]

theorem subst_eq_replaceAll (key value form : Str) (hkey : key ≠ []) :
    subst key value form hkey = replaceAll key value form :=
  substLoop_eq_replaceAll key value form hkey 0

/-- The pieces between the leftmost occurrences of the key that do not overlap depend on the
key and the form; every value is put between them, whatever it holds. -/
theorem subst_joins_pieces {key : Str} (hkey : key ≠ []) (form : Str) :
    ∃! pieces, LeftmostCut key form pieces ∧
      ∀ value, subst key value form hkey = value.intercalate pieces := by
  obtain ⟨pieces, ⟨hcut, hjoin⟩, -⟩ := replaceAll_joins hkey form
  refine ⟨pieces, ⟨hcut, fun value => ?_⟩, fun _ h => h.1.unique hcut⟩
  rw [subst_eq_replaceAll, hjoin]

theorem subst_joins_pieces_overlap :
    subst "aa".toList "baab".toList "aaab".toList (by decide) = "baabab".toList := by
  obtain ⟨pieces, ⟨hcut, hjoin⟩, -⟩ :=
    subst_joins_pieces (by decide : "aa".toList ≠ []) "aaab".toList
  have hpieces : LeftmostCut "aa".toList ([] ++ ("aa".toList ++ "ab".toList)) [[], "ab".toList] :=
    .cut (by simp) (.last (by decide))
  rw [hjoin, hcut.unique hpieces]
  rfl

/-- One item of a macro, or a value that is put into one. -/
structure Item where
  text : Str
  ne_nil : text ≠ []
  trimmed : Trimmed text
  semicolon : ';' ∉ text
  cr : '\r' ∉ text
  nul : '\x00' ∉ text

def macroText (items : List Item) : Str := [';'].intercalate (items.map Item.text)

/-- `to_items` finds the items of a macro. -/
theorem toItems_macroText (items : List Item) :
    toItems (macroText items) ';' = items.map Item.text := by
  apply toItems_intercalate (by decide) (by decide)
  intro t ht
  obtain ⟨i, -, rfl⟩ := List.mem_map.mp ht
  exact ⟨i.ne_nil, i.trimmed, i.semicolon, i.nul⟩

def Item.decimal (n : ℤ) : Item where
  text := Arm2D.decimal n
  ne_nil := decimal_ne_nil n
  trimmed := trimmed_of_clean fun c hc => by
    rcases mem_decimal hc with rfl | hdigit
    · rfl
    · exact isspace_of_isDigit hdigit
  semicolon := notMem_decimal (by decide) (by decide) n
  cr := notMem_decimal (by decide) (by decide) n
  nul := notMem_decimal (by decide) (by decide) n

def Item.replace (var : Str) (value i : Item) : Item where
  text := replaceAll (MotorDriver.varMarker var) value.text i.text
  ne_nil := replaceAll_ne_nil value.ne_nil i.ne_nil
  trimmed :=
    ⟨fun c hc => (mem_head?_replaceAll value.ne_nil hc).elim (value.trimmed.1 c) (i.trimmed.1 c),
      fun c hc =>
        (mem_getLast?_replaceAll value.ne_nil hc).elim (value.trimmed.2 c) (i.trimmed.2 c)⟩
  semicolon := fun h => (mem_replaceAll h).elim value.semicolon i.semicolon
  cr := fun h => (mem_replaceAll h).elim value.cr i.cr
  nul := fun h => (mem_replaceAll h).elim value.nul i.nul

theorem subst_macroText {var : Str} (hvar : ';' ∉ var) (value : Item) (items : List Item) :
    subst (MotorDriver.varMarker var) value.text (macroText items)
        (MotorDriver.varMarker_ne_nil var) =
      macroText (items.map (Item.replace var value)) := by
  have hmarker : ';' ∉ MotorDriver.varMarker var := by simp [MotorDriver.varMarker, hvar]
  rw [subst_eq_replaceAll, macroText,
    replaceAll_intercalate (MotorDriver.varMarker_ne_nil var) hmarker, macroText, List.map_map,
    List.map_map]
  rfl

/-- What was written, cut at the carriage returns, without its empty lines. -/
def wireLines (written : Str) : List Str := (written.splitOn '\r').filter (· ≠ [])

theorem wireLines_returns (k : ℕ) (s : Str) :
    wireLines (List.replicate k '\r' ++ s) = wireLines s := by
  induction k with
  | zero => rfl
  | succ k ih =>
    rw [List.replicate_succ, List.cons_append, ← ih, wireLines, wireLines]
    have hcut := List.splitOn_append_cons_self (a := '\r') [] (List.replicate k '\r' ++ s)
    rw [List.nil_append] at hcut
    rw [hcut]
    simp

theorem wireLines_command {command : Str} (hne : command ≠ []) (hcr : '\r' ∉ command) (k : ℕ)
    (s : Str) :
    wireLines (command ++ List.replicate (k + 1) '\r' ++ s) = command :: wireLines s := by
  rw [← wireLines_returns k s, List.replicate_succ, List.append_assoc, List.cons_append,
    wireLines, wireLines, List.splitOn_append_cons_self, List.splitOn_eq_singleton hcr]
  simp [hne]

/-- A command that `run_commands2` sends as it is and waits on. -/
structure Sendable (command : Str) : Prop where
  ne_nil : command ≠ []
  cr : '\r' ∉ command
  nul : '\x00' ∉ command
  quit : command.head? ≠ some 'q'

theorem sendable_of_index (n : ℕ) (i : Item) : Sendable (decimal n ++ i.text) where
  ne_nil := by simp [i.ne_nil]
  cr := by simp [i.cr, notMem_decimal]
  nul := by simp [i.nul, notMem_decimal]
  quit := by
    rw [List.head?_append_of_ne_nil _ (decimal_ne_nil n)]
    exact fun h => notMem_decimal (by decide) (by decide) _ (List.mem_of_head? h)

namespace MotorDriver
variable {R : Type}

theorem pollLoop_written (tries : ℕ) (md : MotorDriver R) (port : SerialPort) :
    ∃ k, (pollLoop tries md port).val.2.written = port.written ++ List.replicate k '\r' := by
  induction tries, md, port using pollLoop.induct with
  | case1 tries md port r port' h ih =>
    obtain ⟨k, hk⟩ := ih
    refine ⟨k + 1, ?_⟩
    rw [pollLoop, dif_pos h]
    exact hk.trans (by simp [port', List.replicate_succ])
  | case2 tries md port r port' h htries ih =>
    obtain ⟨k, hk⟩ := ih
    refine ⟨k + 1, ?_⟩
    rw [pollLoop, dif_neg h, if_pos htries]
    exact hk.trans (by simp [port', List.replicate_succ])
  | case3 tries md port r h htries =>
    refine ⟨1, ?_⟩
    rw [pollLoop, dif_neg h, if_neg htries]
    rfl

theorem runCommands2_written {md : MotorDriver R} {command : Str} {rest : List Str}
    (hlist : md.shortCommandList = command :: rest) (h : Sendable command) (port : SerialPort) :
    ∃ k, (md.runCommands2 false port).val.2.written =
      port.written ++ (command ++ List.replicate (k + 1) '\r') := by
  obtain ⟨k, hk⟩ := pollLoop_written 10 (md.withCommands rest) (port.write (command ++ ['\r']))
  refine ⟨k, ?_⟩
  rw [runCommands2, hlist]
  simp only [cStr_of_notMem h.nul, h.quit, if_false, Bool.false_eq_true]
  rw [hk, SerialPort.write, List.replicate_succ]
  simp

/-- The queue is empty and the port has got these lines since. -/
def Sent (port : SerialPort) (lines : List Str) (r : MotorDriver R × SerialPort) : Prop :=
  r.1.shortCommandList = [] ∧
    ∃ out, r.2.written = port.written ++ out ∧ wireLines out = lines

theorem runLines_sent (md : MotorDriver R) (port : SerialPort)
    (h : ∀ command ∈ md.shortCommandList, Sendable command) :
    Sent port md.shortCommandList (md.runLines false port).val := by
  induction hlist : md.shortCommandList generalizing md port with
  | nil =>
    rw [runLines, dif_pos hlist]
    exact ⟨hlist, [], by simp, by simp [wireLines]⟩
  | cons command rest ih =>
    have hcommand := h command (by simp [hlist])
    obtain ⟨k, hk⟩ := runCommands2_written hlist hcommand port
    have hrest : (md.runCommands2 false port).val.1.shortCommandList = rest := by
      rw [runCommands2_shortCommandList, hlist, List.tail_cons]
    obtain ⟨hempty, out, hout, hlines⟩ :=
      ih (md.runCommands2 false port).val.1 (md.runCommands2 false port).val.2
        (fun c hc => h c (by rw [hlist]; exact List.mem_cons_of_mem _ (hrest ▸ hc))) hrest
    rw [runLines, dif_neg (by simp [hlist])]
    refine ⟨hempty, command ++ List.replicate (k + 1) '\r' ++ out, ?_, ?_⟩
    · rw [hout, hk, List.append_assoc]
    · rw [wireLines_command hcommand.ne_nil hcommand.cr, hlines]

theorem runLines_addItems_sent {md : MotorDriver R} (hempty : md.shortCommandList = [])
    (port : SerialPort) (items : List Item) :
    Sent port (items.map fun i => md.indexStr ++ i.text)
      ((md.addItems (macroText items)).runLines false port).val := by
  have hlist : (md.addItems (macroText items)).shortCommandList =
      items.map fun i => md.indexStr ++ i.text := by
    rw [addItems, withCommands_shortCommandList, hempty, toItems_macroText, List.map_map]
    rfl
  rw [← hlist]
  apply runLines_sent
  rw [hlist]
  intro command hcommand
  obtain ⟨i, -, rfl⟩ := List.mem_map.mp hcommand
  exact sendable_of_index _ i

/-- A macro reaches the wire unchanged, and with its variable replaced in the second
form of `run_action`. -/
theorem runAction_sent {md : MotorDriver R} (hempty : md.shortCommandList = [])
    (port : SerialPort) {actionKey : Str} {items : List Item}
    (hstored : md.parameters actionKey = some (macroText items)) {var : Str} (hvar : ';' ∉ var)
    (value : Item) :
    Sent port (items.map fun i => md.indexStr ++ i.text)
        (md.runAction false port actionKey).val ∧
      Sent port
        (items.map fun i => md.indexStr ++ replaceAll (varMarker var) value.text i.text)
        (md.runActionVar false port actionKey var value.text).val := by
  have hat : md.parameterAt actionKey = macroText items := by
    rw [parameterAt, hstored, Option.getD_some]
  constructor
  · rw [runAction, hat]
    exact runLines_addItems_sent hempty port items
  · have hsent := runLines_addItems_sent hempty port (items.map (Item.replace var value))
    rw [List.map_map] at hsent
    rw [runActionVar, actionText, hat, subst_macroText hvar]
    exact hsent

theorem runAction_sent_move :
    let move : Item :=
      ⟨"MA\x7bn\x7d".toList, by decide, ⟨by simp [isspace], by simp [isspace]⟩, by decide,
        by decide, by decide⟩
    let stop : Item :=
      ⟨"ST".toList, by decide, ⟨by simp [isspace], by simp [isspace]⟩, by decide, by decide,
        by decide⟩
    let steps : Item :=
      ⟨"250".toList, by decide, ⟨by simp [isspace], by simp [isspace]⟩, by decide, by decide,
        by decide⟩
    let md := (construct 1 : MotorDriver ℚ).addParameter "move".toList (macroText [move, stop])
    let port : SerialPort := ⟨[none, some '1', some '\r'], []⟩
    Sent port ["1MA\x7bn\x7d".toList, "1ST".toList]
        (md.runAction false port "move".toList).val ∧
      Sent port ["1MA250".toList, "1ST".toList]
        (md.runActionVar false port "move".toList "n".toList steps.text).val := by
  intro move stop steps md port
  have hindex : md.indexStr = ['1'] := by decide
  have hempty : md.shortCommandList = [] := rfl
  have hstored : md.parameters "move".toList = some (macroText [move, stop]) := by
    simp [md, MotorDriver.addParameter]
  have hvar : ';' ∉ "n".toList := by decide
  have hsent := runAction_sent hempty port hstored hvar steps
  simpa [hindex, replaceAll, varMarker, move, stop, steps] using hsent

end MotorDriver
end Arm2D
