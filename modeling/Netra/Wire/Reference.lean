import Netra.Wire.RoundTrip
import Mathlib.Data.Rat.Encodable
import Mathlib.Logic.Function.Basic
import Mathlib.Logic.Encodable.Basic
import Mathlib.Logic.Equiv.List
import Mathlib.Tactic.DeriveEncodable
/-!
# A `PyText` to evaluate the codecs on

JSON values are written as lists of tokens and these as numbers, which loses
nothing (`tokens_inj`); a few texts, those that come up below, are Python's own.
-/
namespace Netra

open PyLib

/-- The tokens of a JSON value; `close` ends an array or an object. -/
inductive JsonToken where
  | null | arr | obj | item | close
  | bool (b : Bool)
  | int (n : Int)
  | float (q : ℚ)
  | str (codes : List ℕ)
  | key (codes : List ℕ)
  deriving DecidableEq, Encodable

def codes (s : String) : List ℕ := s.toList.map Char.toNat

theorem codes_inj {s t : String} : codes s = codes t ↔ s = t := by
  have hchar : Function.Injective Char.toNat := fun a b hab => Char.toNat_inj.1 hab
  rw [codes, codes, (List.map_injective_iff.2 hchar).eq_iff, String.toList_inj]

namespace Json

mutual

def tokens : Json → List JsonToken
  | .null => [.null]
  | .bool b => [.bool b]
  | .int n => [.int n]
  | .float q => [.float q]
  | .str s => [.str (codes s)]
  | .arr xs => .arr :: tokensArr xs
  | .obj kvs => .obj :: tokensObj kvs

def tokensArr : List Json → List JsonToken
  | [] => [.close]
  | x :: xs => .item :: (tokens x ++ tokensArr xs)

def tokensObj : List (String × Json) → List JsonToken
  | [] => [.close]
  | (k, x) :: kvs => .key (codes k) :: (tokens x ++ tokensObj kvs)

end

mutual

/-- No value's tokens start those of another value. -/
theorem tokens_append_inj (x y : Json) (r s : List JsonToken) (h : tokens x ++ r = tokens y ++ s) :
    x = y ∧ r = s := by
  cases x <;> cases y <;> simp only [tokens, List.cons_append, List.nil_append, List.cons.injEq, reduceCtorEq,
    false_and, JsonToken.bool.injEq, JsonToken.int.injEq, JsonToken.float.injEq, JsonToken.str.injEq,
    codes_inj, true_and] at h
  case arr.arr xs ys =>
    obtain ⟨rfl, rfl⟩ := tokensArr_append_inj xs ys r s h
    exact ⟨rfl, rfl⟩
  case obj.obj xs ys =>
    obtain ⟨rfl, rfl⟩ := tokensObj_append_inj xs ys r s h
    exact ⟨rfl, rfl⟩
  all_goals simp_all

theorem tokensArr_append_inj (xs ys : List Json) (r s : List JsonToken)
    (h : tokensArr xs ++ r = tokensArr ys ++ s) : xs = ys ∧ r = s := by
  cases xs with
  | nil => cases ys <;> simp_all [tokensArr]
  | cons x xs =>
    cases ys with
    | nil => simp [tokensArr] at h
    | cons y ys =>
      simp only [tokensArr, List.cons_append, List.append_assoc, List.cons.injEq, true_and] at h
      obtain ⟨rfl, hrest⟩ := tokens_append_inj x y _ _ h
      obtain ⟨rfl, rfl⟩ := tokensArr_append_inj xs ys r s hrest
      exact ⟨rfl, rfl⟩

theorem tokensObj_append_inj (xs ys : List (String × Json)) (r s : List JsonToken)
    (h : tokensObj xs ++ r = tokensObj ys ++ s) : xs = ys ∧ r = s := by
  cases xs with
  | nil => cases ys <;> simp_all [tokensObj]
  | cons x xs =>
    cases ys with
    | nil => simp [tokensObj] at h
    | cons y ys =>
      obtain ⟨k, x⟩ := x
      obtain ⟨l, y⟩ := y
      simp only [tokensObj, List.cons_append, List.append_assoc, List.cons.injEq, JsonToken.key.injEq,
        codes_inj] at h
      obtain ⟨rfl, hmore⟩ := h
      obtain ⟨rfl, hrest⟩ := tokens_append_inj x y _ _ hmore
      obtain ⟨rfl, rfl⟩ := tokensObj_append_inj xs ys r s hrest
      exact ⟨rfl, rfl⟩

end

theorem tokens_inj : Function.Injective tokens := fun x y h =>
  (tokens_append_inj x y [] [] (by rw [h])).1

end Json

namespace PyText

section
variable {α : Type} [Encodable α]

/-- A mark with a tally. -/
def tally (a : α) : String := String.ofList ('#' :: List.replicate (Encodable.encode a) '|')

theorem tally_inj : Function.Injective (tally : α → String) := by
  intro a b h
  rw [tally, tally, String.ofList_inj, List.cons_inj_right] at h
  have hlen := congrArg List.length h
  rw [List.length_replicate, List.length_replicate] at hlen
  exact Encodable.encode_inj.1 hlen

variable [DecidableEq α] (known : List (α × String))

/-- Python's text where it is `known`, and a tally elsewhere. -/
def text (a : α) : String :=
  match known.find? (·.1 = a) with
  | some m => m.2
  | none => tally a

theorem text_cases (a : α) : (a, text known a) ∈ known ∨ text known a = tally a := by
  unfold text
  split
  · rename_i m hm
    have hkey : m.1 = a := by simpa using List.find?_some hm
    exact .inl (hkey ▸ List.mem_of_find?_eq_some hm)
  · exact .inr rfl

variable {known}

theorem text_inj (hdistinct : (known.map Prod.snd).Nodup) (hmark : ∀ m ∈ known, m.2.toList.head? ≠ some '#') :
    Function.Injective (text known) := by
  have hnew {a b : α} (hm : (a, text known a) ∈ known) : text known a ≠ tally b := by
    intro h
    exact hmark _ hm (by simp [h, tally])
  intro a b h
  rcases text_cases known a with ha | ha
  · rcases text_cases known b with hb | hb
    · exact congrArg Prod.fst (List.inj_on_of_nodup_map hdistinct ha hb h)
    · exact absurd (h.trans hb) (hnew ha)
  · rcases text_cases known b with hb | hb
    · exact absurd (h.symm.trans ha) (hnew hb)
    · exact tally_inj (ha.symm.trans (h.trans hb))

end

def knownInts : List (Int × String) := [(0, "0"), (1, "1")]

def knownFloats : List (ℚ × String) := [(1, "1.0")]

def knownJson : List (List JsonToken × String) := [([.arr, .close], "[]"), ([.obj, .close], "{}")]

theorem intText_inj : Function.Injective (text knownInts) := text_inj (by decide) (by decide)

theorem floatText_inj : Function.Injective (text knownFloats) := text_inj (by decide) (by decide)

theorem jsonText_inj : Function.Injective (text knownJson ∘ Json.tokens) :=
  (text_inj (by decide) (by decide)).comp Json.tokens_inj

/-- Every text is read back by looking for what was written. But for 0, 1, 1.0, `[]` and `{}`
the texts are tallies and not Python's. -/
noncomputable def reference : PyText where
  strInt := text knownInts
  int := Function.partialInv (text knownInts)
  strFloat := text knownFloats
  float := Function.partialInv (text knownFloats)
  dumps j := text knownJson j.tokens
  loads := Function.partialInv (text knownJson ∘ Json.tokens)
  int_strInt := Function.partialInv_left intText_inj
  int_empty := by
    refine dif_neg ?_
    rintro ⟨n, hn⟩
    rcases text_cases knownInts n with hm | hm
    · rw [hn] at hm
      simp [knownInts] at hm
    · rw [hn] at hm
      simp [tally] at hm
  float_strFloat := Function.partialInv_left floatText_inj
  loads_dumps j _ := Function.partialInv_left jsonText_inj j

theorem reference_float_empty : reference.float "" = none := by
  refine dif_neg ?_
  rintro ⟨q, hq⟩
  rcases text_cases knownFloats q with hm | hm
  · rw [hq] at hm
    simp [knownFloats] at hm
  · rw [hq] at hm
    simp [tally] at hm

end PyText

namespace Wire

/-- Entering a zone, seen with certainty at time 1. -/
def entered : AssociationEvent :=
  { cameraId := "cam_1", trackId := 1, eventType := .zoneEnter, zoneName := some "exit_zone", timestamp := 1 }

def emptyFrame : Detections := { cameraId := "cam_1", persons := [], items := [], frameSeq := 1 }

theorem text_one : PyText.text PyText.knownInts 1 = "1" ∧ PyText.text PyText.knownFloats 1 = "1.0" ∧
    PyText.text PyText.knownJson (Json.tokens (.arr [])) = "[]" ∧
    PyText.text PyText.knownJson (Json.tokens (.obj [])) = "{}" := by decide

theorem wire_stable_entered :
    encodeAssociationEvent PyText.reference entered =
      [("camera_id", "cam_1"), ("track_id", "1"), ("event_type", "ZONE_ENTER"), ("item_id", ""),
        ("zone_name", "exit_zone"), ("confidence", "1.0"), ("metadata", "{}"), ("timestamp", "1.0")] ∧
    Reencodes (decodeAssociationEvent PyText.reference) (encodeAssociationEvent PyText.reference)
      (encodeAssociationEvent PyText.reference entered) ∧
    decodeAssociationEvent PyText.reference (encodeAssociationEvent PyText.reference entered) = some entered ∧
    encodeDetectionEvent PyText.reference emptyFrame none 1 =
      [("camera_id", "cam_1"), ("frame_seq", "1"), ("timestamp", "1.0"), ("persons", "[]"), ("items", "[]")] ∧
    Reencodes (decodeDetectionEvent PyText.reference)
      (fun r => encodeDetectionEvent PyText.reference r.1 (some r.2) 0)
      (encodeDetectionEvent PyText.reference emptyFrame none 1) ∧
    decodeDetectionEvent PyText.reference (encodeDetectionEvent PyText.reference emptyFrame (some 1) 0) =
      some (emptyFrame.restamp 1, 1) := by
  obtain ⟨hint, hfloat, harr, hobj⟩ := text_one
  have hmeta : (Json.obj entered.metadata).WellFormed := .obj List.nodup_nil (by simp [entered])
  obtain ⟨-, hdetection, hassociation, -, -, -, -, -, hsame, hrestamp⟩ := wire_stable PyText.reference
  refine ⟨?_, hassociation entered hmeta, hsame entered (by decide) hmeta, ?_,
    hdetection emptyFrame none 1 0 one_pos, hrestamp emptyFrame 1 0 one_ne_zero⟩
  · simp [encodeAssociationEvent, PyText.reference, entered, hint, hfloat, hobj, orEmpty, encodeItemId,
      StrEnum.value, StrEnum.members]
  · simp [encodeDetectionEvent, PyText.reference, emptyFrame, hint, hfloat, harr, stamp]

end Wire

end Netra
