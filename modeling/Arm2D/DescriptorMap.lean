import Arm2D.Descriptions
import Arm2D.Library.Runs
import Arm2D.ParameterEntries
import Arm2D.ToItems

/-! # A descriptor and its block

A block of the parameter file is kept as one text; `set_descriptor` takes it apart again. -/
namespace Arm2D
open Library

/-- A line of a descriptor. -/
structure Pair where
  key : Str
  value : Str
  ne_nil : key ≠ []
  key_trimmed : Trimmed key
  value_trimmed : Trimmed value
  colon : ':' ∉ key
  key_semicolon : ';' ∉ key
  value_semicolon : ';' ∉ value
  key_nul : '\x00' ∉ key
  value_nul : '\x00' ∉ value

namespace Pair

def line (p : Pair) : Str := p.key ++ ": ".toList ++ p.value

/-- The text of a block of these lines. -/
def blockText (pairs : List Pair) : Str :=
  [';'].intercalate (pairs.map fun p => trimString p.line)

/-- The map of these pairs: of several for one key the last counts. -/
def toMap (pairs : List Pair) (key : Str) : Option Str :=
  (pairs.reverse.find? fun p => p.key = key).map value

theorem trimString_line (p : Pair) : trimString p.line = trim p.line := by
  have hnul : '\x00' ∉ p.line := by simp [line, p.key_nul, p.value_nul]
  rw [trimString, cStr_of_notMem hnul]

theorem itemText_line (p : Pair) : ItemText ';' (trimString p.line) := by
  obtain ⟨htrim, htrimmed⟩ := trim_keyLine p.ne_nil p.key_trimmed p.value_trimmed
  rw [trimString_line, line, htrim]
  refine ⟨by simp, htrimmed, ?_, ?_⟩
  · split_ifs <;> simp [p.key_semicolon, p.value_semicolon]
  · split_ifs <;> simp [p.key_nul, p.value_nul]

theorem blockLoop_pairs {pairs : List Pair} (h : ∀ p ∈ pairs, p.key.head? ≠ some '#')
    (lit : List Str) :
    blockLoop [] [] (pairs.map line ++ ['\x7d'] :: lit) = some (blockText pairs, lit) := by
  have hkept : ∀ l ∈ pairs.map line,
      (trimString l).head? ≠ some '#' ∧ trimString l ≠ ['\x7d'] := by
    intro l hl
    obtain ⟨p, hp, rfl⟩ := List.mem_map.mp hl
    have hhead := head?_trim_keyLine p.ne_nil p.key_trimmed p.value_trimmed
    have htrim := (trim_keyLine p.ne_nil p.key_trimmed p.value_trimmed).1
    rw [trimString_line]
    refine ⟨hhead ▸ h p hp, ?_⟩
    rw [line, htrim]
    intro hbrace
    have hcolon : ':' ∈ ['\x7d'] := by simp [← hbrace]
    exact absurd hcolon (by decide)
  have hblock := blockLoop_lines [] lit hkept
  rw [if_pos rfl, List.intercalate_nil, List.nil_append, List.map_map] at hblock
  exact hblock

theorem setDescriptor_eq_toMap (pairs : List Pair) :
    setDescriptor (fun _ => none) (blockText pairs) = toMap pairs := by
  have hitems : toItems (blockText pairs) ';' = pairs.map fun p => trimString p.line := by
    apply toItems_intercalate (by decide) (by decide)
    intro t ht
    obtain ⟨p, -, rfl⟩ := List.mem_map.mp ht
    exact p.itemText_line
  have hpair : ∀ p : Pair, trimString (splitString (trimString p.line) ':').1 = p.key ∧
      trimString (splitString (trimString p.line) ':').2 = p.value := by
    intro p
    have hnul := p.itemText_line.nul
    rw [trimString_line] at hnul ⊢
    exact splitString_keyLine p.ne_nil p.key_trimmed p.value_trimmed p.colon hnul
  funext key
  rw [setDescriptor, hitems, List.foldl_map]
  simp only [hpair]
  rw [foldl_update_last Pair.key Pair.value, toMap, Option.or_none]

/-- `set_descriptor` makes of the text of a block exactly the map of its lines, and this text
is what the reader keeps, unless it takes a line for a comment. -/
theorem setDescriptor_blockText (pairs : List Pair) :
    setDescriptor (fun _ => none) (blockText pairs) = toMap pairs ∧
      ∀ lit, (∀ p ∈ pairs, p.key.head? ≠ some '#') →
        blockLoop [] [] (pairs.map line ++ ['\x7d'] :: lit) = some (blockText pairs, lit) :=
  ⟨setDescriptor_eq_toMap pairs, fun lit h => blockLoop_pairs h lit⟩

theorem setDescriptor_blockText_camera :
    let port : Pair := ⟨"port".toList, "1:2".toList, by decide,
      trimmed_of_clean (by simp [isspace]), trimmed_of_clean (by simp [isspace]), by decide,
      by decide, by decide, by decide, by decide⟩
    let again : Pair := ⟨"port".toList, [], by decide, trimmed_of_clean (by simp [isspace]),
      trimmed_of_clean (by simp [isspace]), by decide, by decide, by decide, by decide, by decide⟩
    setDescriptor (fun _ => none) (blockText [port, again]) = toMap [port, again] ∧
      blockLoop [] [] ([port, again].map line ++ [['\x7d']]) =
        some (blockText [port, again], []) := by
  intro port again
  obtain ⟨hmap, hblock⟩ := setDescriptor_blockText [port, again]
  refine ⟨hmap, hblock [] fun p hp => ?_⟩
  rcases List.mem_cons.mp hp with rfl | hp
  · decide
  · rw [List.mem_singleton.mp hp]
    decide

theorem setDescriptor_behind_nul :
    let key := "port".toList
    let value := ['1', '\x00', '2']
    key ≠ [] ∧ Trimmed key ∧ Trimmed value ∧ ':' ∉ key ∧
      (∀ c ∈ key ++ value, c ≠ ';' ∧ c ≠ '\n') ∧
      setDescriptor (fun _ => none)
        ([';'].intercalate [trimString (key ++ ": ".toList ++ value)]) key ≠ some value := by
  intro key value
  have hclean : ∀ c ∈ key ++ value, isspace c = false := by simp [key, value, isspace]
  have hcut : setDescriptor (fun _ => none)
      ([';'].intercalate [trimString (key ++ ": ".toList ++ value)]) key = some ['1'] := by
    decide +kernel
  rw [hcut]
  exact ⟨by simp [key], trimmed_of_clean fun c hc => hclean c (List.mem_append_left _ hc),
    trimmed_of_clean fun c hc => hclean c (List.mem_append_right _ hc), by simp [key],
    by simp [key, value], by simp [value]⟩

end Pair
end Arm2D
