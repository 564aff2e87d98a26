import Netra.Wire.Codecs
/-!
# What is written is read back

For each of the six codecs, what `decode` reads from a message that `encode` has
written, in terms of what was encoded. The fields that are not on the wire come
back from the envelope or with their defaults, an empty optional text comes back
as `None`. In every case encoding again gives the same message.
-/
namespace Netra.Wire

open PyLib

/-- Reading a list of encoded values one by one. -/
theorem mapM_comp {α β γ : Type} {f : α → β} {g : β → Option γ} {k : α → γ} (hg : ∀ a, g (f a) = some (k a))
    (l : List α) : l.mapM (g ∘ f) = some (l.map k) := by
  induction l with
  | nil => rfl
  | cons a l ih => simp [List.mapM_cons, hg, ih]

theorem mapM_comp_self {α β : Type} {f : α → β} {g : β → Option α} (hg : ∀ a, g (f a) = some a) (l : List α) :
    l.mapM (g ∘ f) = some l := by
  rw [mapM_comp hg, List.map_id']

@[simp] theorem lookup_cons_ne {α : Type} {k a : String} {s : α} {d : List (String × α)} (h : k ≠ a) :
    List.lookup k ((a, s) :: d) = List.lookup k d := by
  rw [List.lookup_cons, beq_false_of_ne h]

/-! ## Values inside JSON -/

@[simp] theorem decBBox_encBBox (b : BBox) : decBBox (encBBox b) = some b := rfl

@[simp] theorem decKeypoint_encKeypoint (kp : Keypoint) : decKeypoint (encKeypoint kp) = some kp := rfl

theorem wellFormed_floats (qs : List ℚ) : (Json.arr (qs.map .float)).WellFormed := by
  refine .arr fun x hx => ?_
  obtain ⟨q, -, rfl⟩ := List.mem_map.1 hx
  exact .float q

theorem wellFormed_encBBox (b : BBox) : (encBBox b).WellFormed := wellFormed_floats [b.x1, b.y1, b.x2, b.y2]

theorem wellFormed_encKeypoint (kp : Keypoint) : (encKeypoint kp).WellFormed :=
  wellFormed_floats [kp.x, kp.y, kp.conf]

/-- A list of encoded values is JSON when each is. -/
theorem wellFormed_map {α : Type} {f : α → Json} (hf : ∀ a, (f a).WellFormed) (l : List α) :
    (Json.arr (l.map f)).WellFormed := by
  refine .arr fun x hx => ?_
  obtain ⟨a, -, rfl⟩ := List.mem_map.1 hx
  exact hf a

theorem wellFormed_encPerson (p : PersonDetection) : (encPerson p).WellFormed := by
  refine .obj (by simp) fun kv hkv => ?_
  simp only [List.mem_cons, List.not_mem_nil, or_false] at hkv
  rcases hkv with rfl | rfl | rfl | rfl | rfl
  · exact .int _
  · exact wellFormed_encBBox _
  · exact .float _
  · exact wellFormed_map wellFormed_encKeypoint _
  · exact .int _

theorem wellFormed_encItem (it : ItemDetection) : (encItem it).WellFormed := by
  refine .obj (by simp) fun kv hkv => ?_
  simp only [List.mem_cons, List.not_mem_nil, or_false] at hkv
  rcases hkv with rfl | rfl | rfl | rfl
  · exact .int _
  · exact wellFormed_encBBox _
  · exact .str _
  · exact .float _

theorem wellFormed_encSignal (s : BehaviorSignal) : (encSignal s).WellFormed := by
  refine .obj (by simp) fun kv hkv => ?_
  simp only [List.mem_cons, List.not_mem_nil, or_false] at hkv
  rcases hkv with rfl | rfl | rfl | rfl
  · exact .str _
  · exact .float _
  · exact .str _
  · exact .str _

/-! ## Optional texts -/

@[simp] theorem orEmpty_none : orEmpty none = "" := rfl

@[simp] theorem orEmpty_some (s : String) : orEmpty (some s) = s := rfl

/-- An empty text is read as `None`. -/
def noEmpty (v : Option String) : Option String := if orEmpty v = "" then none else v

theorem noEmpty_of_ne {v : Option String} (hv : v ≠ some "") : noEmpty v = v := by
  cases v with
  | none => rfl
  | some s =>
    have hs : s ≠ "" := fun h => hv (by rw [h])
    rw [noEmpty, orEmpty_some, if_neg hs]

theorem orEmpty_noEmpty (v : Option String) : orEmpty (noEmpty v) = orEmpty v := by
  unfold noEmpty
  split
  · rename_i h
    rw [h, orEmpty_none]
  · rfl

theorem textOrNone_orEmpty {d : Message} {k : String} {v : Option String} (h : d.lookup k = some (orEmpty v)) :
    textOrNone d k = some (noEmpty v) := by
  rw [textOrNone, h, Option.map_some, noEmpty]
  cases v <;> rfl

section
variable (py : PyText)

theorem strInt_ne_empty (n : Int) : py.strInt n ≠ "" := by
  intro h
  have hread := py.int_strInt n
  rw [h, py.int_empty] at hread
  cases hread

theorem decodeItemId_encode (itemId : Option Int) : decodeItemId py (encodeItemId py itemId) = some itemId := by
  cases itemId with
  | none => rfl
  | some n => rw [encodeItemId, decodeItemId, if_neg (strInt_ne_empty py n), py.int_strInt, Option.map_some]

/-! ## The six codecs -/

theorem decode_encodeFramePointer (fp : FramePointer) :
    decodeFramePointer py (encodeFramePointer py fp) = some fp := by
  simp [decodeFramePointer, encodeFramePointer, intField, floatField, py.int_strInt, py.float_strFloat]

theorem decPerson_encPerson (cameraId : String) (timestamp : ℚ) (p : PersonDetection) :
    decPerson cameraId timestamp (encPerson p) = some { p with cameraId, timestamp } := by
  simp [decPerson, encPerson, get, asInt, asFloat, asList, mapM_comp_self decKeypoint_encKeypoint]

theorem decItem_encItem (cameraId : String) (timestamp : ℚ) (it : ItemDetection) :
    decItem cameraId timestamp (encItem it) = some { it with cameraId, timestamp } := by
  simp [decItem, encItem, get, asInt, asFloat, asStr]

/-- Every detection of the message gets its camera and time. -/
def Detections.restamp (ev : Detections) (timestamp : ℚ) : Detections :=
  { ev with
    persons := ev.persons.map fun p => { p with cameraId := ev.cameraId, timestamp }
    items := ev.items.map fun it => { it with cameraId := ev.cameraId, timestamp } }

theorem decode_encodeDetectionEvent (ev : Detections) (timestamp : Option ℚ) (now : ℚ) :
    decodeDetectionEvent py (encodeDetectionEvent py ev timestamp now) =
      some (ev.restamp (stamp timestamp now), stamp timestamp now) := by
  have hpersons := py.loads_dumps _ (wellFormed_map wellFormed_encPerson ev.persons)
  have hitems := py.loads_dumps _ (wellFormed_map wellFormed_encItem ev.items)
  simp [decodeDetectionEvent, encodeDetectionEvent, intField, floatField, jsonField, asList, py.int_strInt,
    py.float_strFloat, hpersons, hitems, mapM_comp (decPerson_encPerson _ _), mapM_comp (decItem_encItem _ _),
    Detections.restamp]

theorem decode_encodeAssociationEvent {ev : AssociationEvent} (hmeta : (Json.obj ev.metadata).WellFormed) :
    decodeAssociationEvent py (encodeAssociationEvent py ev) =
      some { ev with zoneName := noEmpty ev.zoneName } := by
  have hzone : textOrNone (encodeAssociationEvent py ev) "zone_name" = some (noEmpty ev.zoneName) :=
    textOrNone_orEmpty (by simp [encodeAssociationEvent])
  rw [decodeAssociationEvent, hzone]
  simp [encodeAssociationEvent, intField, floatField, jsonField, enumField, asDict, py.int_strInt,
    py.float_strFloat, py.loads_dumps _ hmeta, decodeItemId_encode]

/-- A signal as the envelope `ev` has it. -/
def envelope (ev : BehaviorEvent) (s : BehaviorSignal) : BehaviorSignal :=
  { s with cameraId := ev.cameraId, trackId := ev.trackId, cumulativeFsmScore := ev.fsmScore,
           timestamp := ev.timestamp }

theorem decSignal_encSignal (ev : BehaviorEvent) (s : BehaviorSignal) :
    decSignal py (encodeBehaviorEvent py ev) (encSignal s) = some (envelope ev s) := by
  simp [decSignal, encSignal, encodeBehaviorEvent, get, asStr, asFloat, intField, floatField, py.int_strInt,
    py.float_strFloat, envelope]

theorem decode_encodeBehaviorEvent (ev : BehaviorEvent) :
    decodeBehaviorEvent py (encodeBehaviorEvent py ev) =
      some { ev with signals := ev.signals.map (envelope ev), storeId := "default", orgId := "default" } := by
  have hsignals : ((jsonField py (encodeBehaviorEvent py ev) "signals").bind asList).bind
      (·.mapM (decSignal py (encodeBehaviorEvent py ev))) = some (ev.signals.map (envelope ev)) := by
    have hloads := py.loads_dumps _ (wellFormed_map wellFormed_encSignal ev.signals)
    rw [← mapM_comp (decSignal_encSignal py ev)]
    simp [jsonField, encodeBehaviorEvent, hloads, asList]
  have hsuspicious : (if ev.suspicious = true then "1" else "0") = "1" ↔ ev.suspicious = true := by
    cases ev.suspicious <;> decide
  rw [decodeBehaviorEvent, hsignals]
  simp [encodeBehaviorEvent, intField, floatField, enumField, py.int_strInt, py.float_strFloat, hsuspicious]

theorem decode_encodeShopFormerScore (s : ShopFormerScore) :
    decodeShopFormerScore py (encodeShopFormerScore py s) = some s := by
  have hloads := py.loads_dumps _ (wellFormed_floats s.embedding)
  have hfloats : s.embedding.mapM (asFloat ∘ Json.float) = some s.embedding := mapM_comp_self (fun _ => rfl) _
  simp [decodeShopFormerScore, encodeShopFormerScore, intField, floatField, jsonField, asList, py.int_strInt,
    py.float_strFloat, hloads, hfloats]

theorem decode_encodeIncidentEvent (ev : IncidentEvent) :
    decodeIncidentEvent py (encodeIncidentEvent py ev) =
      some { ev with clipPath := noEmpty ev.clipPath, storeId := "default", orgId := "default" } := by
  have hloads := py.loads_dumps _ (wellFormed_map Json.WellFormed.str ev.evidenceFramePaths)
  have hpaths : ev.evidenceFramePaths.mapM (asStr ∘ Json.str) = some ev.evidenceFramePaths :=
    mapM_comp_self (fun _ => rfl) _
  have hclip : textOrNone (encodeIncidentEvent py ev) "clip_path" = some (noEmpty ev.clipPath) :=
    textOrNone_orEmpty (by simp [encodeIncidentEvent])
  rw [decodeIncidentEvent, hclip]
  simp [encodeIncidentEvent, intField, floatField, jsonField, enumField, asList, py.int_strInt,
    py.float_strFloat, hloads, hpaths]

/-! ## Encoding again -/

/-- `dec` reads the message, and `enc` writes what it read as the same message. -/
def Reencodes {β : Type} (dec : Message → Option β) (enc : β → Message) (m : Message) : Prop :=
  ∃ x, dec m = some x ∧ enc x = m

theorem encSignal_envelope (ev : BehaviorEvent) (s : BehaviorSignal) :
    encSignal (envelope ev s) = encSignal s := rfl

theorem stamp_some_pos {t : ℚ} (ht : t ≠ 0) (now : ℚ) : stamp (some t) now = t := if_neg ht

/-- A clock that has started never stamps 0. -/
theorem stamp_ne_zero (timestamp : Option ℚ) {now : ℚ} (hnow : 0 < now) : stamp timestamp now ≠ 0 := by
  cases timestamp with
  | none => exact hnow.ne'
  | some t =>
    rw [stamp]
    split
    · exact hnow.ne'
    · assumption

theorem encodeDetectionEvent_restamp (ev : Detections) {t : ℚ} (ht : t ≠ 0) (now : ℚ) (timestamp : Option ℚ)
    (now' : ℚ) (hstamp : stamp timestamp now' = t) :
    encodeDetectionEvent py (ev.restamp t) (some t) now = encodeDetectionEvent py ev timestamp now' := by
  have hperson : encPerson ∘ (fun p => { p with cameraId := ev.cameraId, timestamp := t }) = encPerson := rfl
  have hitem : encItem ∘ (fun it => { it with cameraId := ev.cameraId, timestamp := t }) = encItem := rfl
  simp only [encodeDetectionEvent, Detections.restamp, List.map_map, hperson, hitem, stamp_some_pos ht, hstamp]

/-- A decoder that gives back what was encoded, up to what encoding forgets. -/
theorem Reencodes.of_decode {β : Type} {dec : Message → Option β} {enc : β → Message} {m : Message} {x : β}
    (hdec : dec m = some x) (henc : enc x = m) : Reencodes dec enc m := ⟨x, hdec, henc⟩

/-- The wire format is stable: what a decoder reads from an encoder's message is
encoded to the same message, and it is what was encoded, up to the fields that
are not on the wire. -/
theorem wire_stable :
    (∀ fp, Reencodes (decodeFramePointer py) (encodeFramePointer py) (encodeFramePointer py fp)) ∧
    (∀ ev timestamp now now', 0 < now →
      Reencodes (decodeDetectionEvent py) (fun r => encodeDetectionEvent py r.1 (some r.2) now')
        (encodeDetectionEvent py ev timestamp now)) ∧
    (∀ ev : AssociationEvent, (Json.obj ev.metadata).WellFormed →
      Reencodes (decodeAssociationEvent py) (encodeAssociationEvent py) (encodeAssociationEvent py ev)) ∧
    (∀ ev, Reencodes (decodeBehaviorEvent py) (encodeBehaviorEvent py) (encodeBehaviorEvent py ev)) ∧
    (∀ s, Reencodes (decodeShopFormerScore py) (encodeShopFormerScore py) (encodeShopFormerScore py s)) ∧
    (∀ ev, Reencodes (decodeIncidentEvent py) (encodeIncidentEvent py) (encodeIncidentEvent py ev)) ∧
    (∀ fp, decodeFramePointer py (encodeFramePointer py fp) = some fp) ∧
    (∀ s, decodeShopFormerScore py (encodeShopFormerScore py s) = some s) ∧
    (∀ ev : AssociationEvent, ev.zoneName ≠ some "" → (Json.obj ev.metadata).WellFormed →
      decodeAssociationEvent py (encodeAssociationEvent py ev) = some ev) ∧
    (∀ (ev : Detections) t now, t ≠ 0 →
      decodeDetectionEvent py (encodeDetectionEvent py ev (some t) now) = some (ev.restamp t, t)) := by
  refine ⟨fun fp => ?_, fun ev timestamp now now' hnow => ?_, fun ev hmeta => ?_, fun ev => ?_, fun s => ?_,
    fun ev => ?_, decode_encodeFramePointer py, decode_encodeShopFormerScore py, fun ev hzone hmeta => ?_,
    fun ev t now ht => ?_⟩
  · exact .of_decode (decode_encodeFramePointer py fp) rfl
  · refine .of_decode (decode_encodeDetectionEvent py ev timestamp now) ?_
    exact encodeDetectionEvent_restamp py ev (stamp_ne_zero timestamp hnow) now' timestamp now rfl
  · refine .of_decode (decode_encodeAssociationEvent py hmeta) ?_
    simp only [encodeAssociationEvent, orEmpty_noEmpty]
  · refine .of_decode (decode_encodeBehaviorEvent py ev) ?_
    have hsignals : encSignal ∘ envelope ev = encSignal := funext (encSignal_envelope ev)
    simp only [encodeBehaviorEvent, List.map_map, hsignals]
  · exact .of_decode (decode_encodeShopFormerScore py s) rfl
  · refine .of_decode (decode_encodeIncidentEvent py ev) ?_
    simp only [encodeIncidentEvent, orEmpty_noEmpty]
  · rw [decode_encodeAssociationEvent py hmeta, noEmpty_of_ne hzone]
  · rw [decode_encodeDetectionEvent, stamp_some_pos ht]

end

end Netra.Wire
