import Netra.Wire.Reference
import Netra.Lib.Dict
import Netra.Lib.Lines
/-!
# Dicts of strings as JSON, and JSON on lines of its own

`json.dumps` with its defaults writes printable ASCII and no line break, so a
file of such lines is read back line by line (`splitLines_jsonLines`).
-/
namespace Netra

open PyLib

structure PyJson extends PyText where
  /-- `str` of a list or a dict -/
  repr : Json → String
  /-- `ensure_ascii`: whatever is not between the space and the tilde is escaped. -/
  dumps_ascii : ∀ j, ∀ c ∈ (dumps j).toList, 32 ≤ c.toNat ∧ c.toNat ≤ 126
  /-- There is a text, and no space at either end of it. -/
  dumps_ne : ∀ j, (dumps j).toList ≠ []
  dumps_head : ∀ j, ∀ c ∈ (dumps j).toList.head?, c ≠ ' '
  dumps_last : ∀ j, ∀ c ∈ (dumps j).toList.getLast?, c ≠ ' '

namespace PyJson

variable (py : PyJson)

/-- `str(v)` -/
def str : Json → String
  | .null => "None"
  | .bool b => if b then "True" else "False"
  | .int n => py.strInt n
  | .float q => py.strFloat q
  | .str s => s
  | v => py.repr v

/-- `json.loads(l)` for each line `l` -/
def loadLines (ls : List (List Char)) : Option (List Json) := ls.mapM fun l => py.loads (String.ofList l)

/-- `f.write(json.dumps(v) + "\n")` for each value, on an empty file. -/
def jsonLines (vs : List Json) : List Char := unlines (vs.map fun v => (py.dumps v).toList)

variable {py}

theorem not_isLineBreak {c : Char} (h : 32 ≤ c.toNat ∧ c.toNat ≤ 126) : isLineBreak c = false := by
  simp only [isLineBreak, List.mem_cons, List.not_mem_nil, or_false, decide_eq_false_iff_not]
  omega

theorem not_isSpace {c : Char} (h : 32 ≤ c.toNat ∧ c.toNat ≤ 126) (hne : c ≠ ' ') : isSpace c = false := by
  have hspace : c.toNat ≠ 32 := fun he => hne (Char.toNat_inj.1 he)
  simp only [isSpace, List.mem_cons, List.not_mem_nil, or_false, Bool.or_eq_false_iff, decide_eq_false_iff_not,
    Bool.and_eq_false_iff]
  omega

theorem trim_dumps (v : Json) : Trim (py.dumps v).toList where
  line c hc := not_isLineBreak (py.dumps_ascii v c hc)
  ne_nil := py.dumps_ne v
  head c hc := not_isSpace (py.dumps_ascii v c (List.mem_of_head? hc)) (py.dumps_head v c hc)
  last c hc := not_isSpace (py.dumps_ascii v c (List.mem_of_getLast? hc)) (py.dumps_last v c hc)

theorem jsonLines_concat (vs : List Json) (v : Json) :
    py.jsonLines (vs ++ [v]) = py.jsonLines vs ++ (py.dumps v).toList ++ ['\n'] := by
  simp [jsonLines, unlines]

theorem trim_lines {vs : List Json} : ∀ l ∈ vs.map fun v => (py.dumps v).toList, Trim l := by
  intro l hl
  obtain ⟨v, -, rfl⟩ := List.mem_map.1 hl
  exact trim_dumps v

/-- The lines of a file of JSON values. -/
theorem splitLines_jsonLines (vs : List Json) :
    splitLines (py.jsonLines vs) = vs.map fun v => (py.dumps v).toList :=
  splitLines_unlines fun l hl => (trim_lines l hl).line

theorem splitLines_strip_jsonLines (vs : List Json) :
    splitLines (strip (py.jsonLines vs)) = vs.map fun v => (py.dumps v).toList := splitLines_strip trim_lines

theorem loadLines_dumps {vs : List Json} (hvs : ∀ v ∈ vs, v.WellFormed) :
    py.loadLines (vs.map fun v => (py.dumps v).toList) = some vs := by
  unfold loadLines
  induction vs with
  | nil => rfl
  | cons v vs ih =>
    obtain ⟨hv, hvs⟩ := List.forall_mem_cons.1 hvs
    rw [List.map_cons, List.mapM_cons, String.ofList_toList, py.loads_dumps v hv, ih hvs]
    rfl

/-- The texts of `PyText.reference`. -/
theorem dumps_reference (j : Json) :
    (PyText.reference.dumps j).toList = ['[', ']'] ∨ (PyText.reference.dumps j).toList = ['{', '}'] ∨
      ∃ n, (PyText.reference.dumps j).toList = '#' :: List.replicate n '|' := by
  rcases PyText.text_cases PyText.knownJson j.tokens with h | h
  · have htext : PyText.reference.dumps j = "[]" ∨ PyText.reference.dumps j = "{}" := by
      simpa [PyText.knownJson, PyText.reference] using (List.mem_map_of_mem (f := Prod.snd) h)
    rcases htext with h | h
    · exact .inl (by rw [h]; rfl)
    · exact .inr (.inl (by rw [h]; rfl))
  · exact .inr (.inr ⟨_, by rw [show PyText.reference.dumps j = _ from h, PyText.tally, String.toList_ofList]⟩)

/-- Its texts are those of `PyText.reference`, most of them not Python's, and every `repr`
is empty. -/
noncomputable def reference : PyJson where
  toPyText := .reference
  repr _ := ""
  dumps_ascii j c hc := by
    rcases dumps_reference j with h | h | ⟨n, h⟩ <;> rw [h] at hc
    · rcases List.mem_pair.1 hc with rfl | rfl <;> decide
    · rcases List.mem_pair.1 hc with rfl | rfl <;> decide
    · rcases List.mem_cons.1 hc with rfl | hc
      · decide
      · rw [List.eq_of_mem_replicate hc]
        decide
  dumps_ne j := by
    rcases dumps_reference j with h | h | ⟨n, h⟩ <;> rw [h] <;> simp
  dumps_head j c hc := by
    rcases dumps_reference j with h | h | ⟨n, h⟩ <;> rw [h] at hc <;> cases hc <;> decide
  dumps_last j c hc := by
    rcases dumps_reference j with h | h | ⟨n, h⟩ <;> rw [h] at hc
    · cases hc
      decide
    · cases hc
      decide
    · rcases List.mem_cons.1 (List.mem_of_getLast? hc) with rfl | hc
      · decide
      · rw [List.eq_of_mem_replicate hc]
        decide

end PyJson

namespace Wire

/-- The items of a dict of strings. -/
def jsonItems (m : Message) : List (String × Json) := m.map fun kv => (kv.1, .str kv.2)

/-- `{k: str(v) for k, v in kvs}` -/
def strItems (py : PyJson) (kvs : List (String × Json)) : Message := kvs.map fun kv => (kv.1, py.str kv.2)

theorem strItems_jsonItems (py : PyJson) (m : Message) : strItems py (jsonItems m) = m := by
  rw [strItems, jsonItems, List.map_map]
  exact List.map_id'' (fun _ => rfl) m

theorem lookup_strItems (py : PyJson) (kvs : List (String × Json)) (k : String) :
    (strItems py kvs).lookup k = (kvs.lookup k).map py.str := by
  unfold strItems
  induction kvs with
  | nil => rfl
  | cons kv kvs ih =>
    rw [List.map_cons, List.lookup_cons, List.lookup_cons, ih]
    split <;> rfl

theorem lookup_setItems {α : Type} {k j : String} (v : α) (kvs : List (String × α)) (h : j ≠ k) :
    (Dict.setItems k v kvs).lookup j = kvs.lookup j := by
  induction kvs with
  | nil => simp [Dict.setItems, h]
  | cons kv kvs ih =>
    unfold Dict.setItems
    split
    · rename_i hk
      rw [List.lookup_cons, List.lookup_cons, hk, beq_false_of_ne h]
    · rw [List.lookup_cons, List.lookup_cons, ih]

theorem wellFormed_jsonItems {m : Message} : ∀ kv ∈ jsonItems m, kv.2.WellFormed := by
  intro kv hkv
  obtain ⟨_, -, rfl⟩ := List.mem_map.1 hkv
  exact .str _

end Wire

end Netra
