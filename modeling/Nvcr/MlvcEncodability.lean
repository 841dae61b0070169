import Nvcr.MlvcCanvasAgreement
import Nvcr.MlvcMetadataSafety
import Nvcr.MlvcRecords

/-!
# The access units of the MLVC encoder

The identity of a model, the canvas and the Q index come from the bundle and the settings, and the
access unit has limits of its own on each of them. A unit that the encoder builds passes all
checks of the serializer and of the decoder exactly within these limits.
-/

namespace Nvcr.Mlvc

open StatefulResults StatefulResults.Action TransitionRuns AccessUnitIo

section Units

/-- The access unit that the encoder builds around a record. -/
def EncoderSession.unitOf (configuration : Configuration) (selection : Selection)
    (plan : FramePlan) (frame : Frame) (record : Bytes) : AccessUnit where
  modelId := selection.model.streamIdentity
  width := frame.width
  height := frame.height
  qp := UInt32.ofNat configuration.intraQp
  frameType := EncoderSession.frameTypeOf plan
  resetState := EncoderSession.frameTypeOf plan = .intra
  payload := record

theorem EncoderSession.makeUnit_eq {Image Feature : Type}
    (environment : Environment Image Feature) (configuration : Configuration)
    (selection : Selection) (plan : FramePlan) (frame : Frame) (record : Bytes) :
    EncoderSession.makeUnit environment configuration selection plan frame record =
      (environment.allocate "access_unit" >>= fun _ =>
        serialize (EncoderSession.unitOf configuration selection plan frame record)
          configuration.maxPacketBytes) := rfl

/-- The checks of a decoder on the bytes of an access unit: framing and record, the identity, the
placement, and the Q index. -/
structure DecoderAccepts (Image Feature : Type) (decoding : Configuration) (selection : Selection)
    (unit : AccessUnit) (bytes : Bytes) (record : FrameRecord) : Prop where
  parsed : ∀ timestamp,
    DecoderSession.parsePacket decoding ⟨bytes, timestamp, unit.frameType⟩ = .ok (unit, record)
  model : DecoderSession.modelFor decoding unit.modelId = some selection.model
  placement : place unit.width.toNat unit.height.toNat selection.model.parameters =
    .ok selection.placement
  symbols : ∀ environment : Environment Image Feature,
    DecoderSession.decodeSymbols environment selection.model unit record =
      environment.entropyDecode selection.model record.payload record.qIndex.toNat

/-- A unit passes every field check of the serializer, which can then fail only for its size, and
a decoder of the same bundle accepts its bytes. -/
structure UnitAccepted (Image Feature : Type) (bundle : Bundle) (selection : Selection)
    (unit : AccessUnit) (record : FrameRecord) : Prop where
  fields : validateV1Fields unit = .ok ()
  limit_only : ∀ maximumBytes, serialize unit maximumBytes = .ok (bytesV1 unit) ∨
    serialize unit maximumBytes = .error limitError
  accepted : ∀ maximumBytes bytes, serialize unit maximumBytes = .ok bytes →
    ∀ decoding : Configuration, decoding.models = bundle.bundleModels →
      bytes.length ≤ decoding.maxPacketBytes →
      DecoderAccepts Image Feature decoding selection unit bytes record

/-- The limits of the access unit in terms of the bundle, the frame and the settings. -/
structure Encodable (bundle : Bundle) (model : BundleModel) (frame : Frame) (qIndex : ℕ)
    (type : FrameType) : Prop where
  name : (textBytes bundle.name).all identifierCharacter = true
  name_length : bundle.name.length + 1 + model.canvasId.length ≤ maximumModelIdBytes
  width : frame.width.toNat ≤ maximumDimension
  height : frame.height.toNat ≤ maximumDimension
  qp : qIndex ≤ maximumQp type

end Units

section Limits

theorem textBytes_length (text : String) : (textBytes text).length = text.length := by
  rw [textBytes, List.length_map, String.length_toList]

theorem digit_identifierCharacter {c : Char} (h : c.isDigit = true) :
    identifierCharacter (UInt8.ofNat c.toNat) = true := by
  simp only [Char.isDigit, Bool.and_eq_true, decide_eq_true_eq] at h
  have hlow : 48 ≤ c.toNat := UInt32.le_iff_toNat_le.mp h.1
  have hhigh : c.toNat ≤ 57 := UInt32.le_iff_toNat_le.mp h.2
  have hbyte : (UInt8.ofNat c.toNat).toNat = c.toNat := by
    rw [UInt8.toNat_ofNat']
    omega
  have hlow' : 48 ≤ UInt8.ofNat c.toNat := UInt8.le_iff_toNat_le.mpr (by rw [hbyte]; exact hlow)
  have hhigh' : UInt8.ofNat c.toNat ≤ 57 := UInt8.le_iff_toNat_le.mpr (by rw [hbyte]; exact hhigh)
  simp [identifierCharacter, hlow', hhigh']

/-- The name of a canvas is an identifier. -/
theorem canvasIdOf_identifier (width height : ℕ) :
    (textBytes (canvasIdOf width height)).all identifierCharacter = true := by
  rw [textBytes, List.all_map, List.all_eq_true]
  intro c hc
  rw [canvasIdOf_toList, List.mem_append, List.mem_cons] at hc
  have hdigit : ∀ n, c ∈ Nat.toDigits 10 n →
      identifierCharacter (UInt8.ofNat c.toNat) = true := fun n h =>
    digit_identifierCharacter (Nat.isDigit_of_mem_toDigits (by decide) (by decide) h)
  rcases hc with hc | rfl | hc
  · exact hdigit width hc
  · decide
  · exact hdigit height hc

/-- The identity of a model is valid exactly when the name of the bundle has identifier characters
and the two names fit. -/
theorem validModelId_iff {bundle : Bundle} {model : BundleModel}
    (h : model ∈ bundle.bundleModels) :
    validModelId model.streamIdentity = true ↔
      (textBytes bundle.name).all identifierCharacter = true ∧
      bundle.name.length + 1 + model.canvasId.length ≤ maximumModelIdBytes := by
  obtain ⟨loaded, hloaded, rfl⟩ := List.mem_map.mp h
  have hidentity : loaded.bundleModel.streamIdentity =
      textBytes bundle.name ++ (textBytes "-" ++ textBytes loaded.canvasId) := by
    change loaded.streamIdentity = _
    rw [bundle.identity_eq loaded hloaded, textBytes_append, textBytes_append, List.append_assoc]
  have hcanvas : (textBytes loaded.canvasId).all identifierCharacter = true := by
    rw [loaded.canvas_id_eq]
    exact canvasIdOf_identifier _ _
  have hdash : (textBytes "-").all identifierCharacter = true := by decide
  have hlength : (textBytes bundle.name ++ (textBytes "-" ++ textBytes loaded.canvasId)).length =
      bundle.name.length + 1 + loaded.canvasId.length := by
    rw [List.length_append, List.length_append, textBytes_length, textBytes_length,
      textBytes_length, Nat.add_assoc]
    rfl
  have hne : (textBytes bundle.name ++ (textBytes "-" ++ textBytes loaded.canvasId)).isEmpty =
      false := by
    rw [List.isEmpty_eq_false_iff_exists_mem]
    exact ⟨45, by simp [textBytes]⟩
  rw [hidentity, validModelId, validIdentifier, hne, hlength, List.all_append, List.all_append,
    hcanvas, hdash]
  simp only [Bool.not_false, Bool.true_and, Bool.and_true, Bool.and_eq_true, decide_eq_true_eq]
  exact and_comm

/-- Sizes that are placed are in range exactly when neither dimension is too large. -/
theorem dimensionsInRange_iff {width height : UInt32} {model : BundleModel} {placement : Placement}
    (h : place width.toNat height.toNat model.parameters = .ok placement) :
    DimensionsInRange width height ↔
      width.toNat ≤ maximumDimension ∧ height.toNat ≤ maximumDimension := by
  obtain ⟨⟨hw, hh, hweven, hheven⟩, -, -⟩ := place_eq_ok h
  constructor
  · rintro ⟨-, -, hwidth, hheight, -⟩
    exact ⟨hwidth, hheight⟩
  · rintro ⟨hwidth, hheight⟩
    refine ⟨fun hzero => hw (by simp [hzero]), fun hzero => hh (by simp [hzero]), hwidth, hheight,
      hweven, hheven, ?_⟩
    exact (Nat.mul_le_mul hwidth hheight).trans (by decide)

theorem qpNum_lt {model : ModelParameters} (h : model.totalQpNum < 2 ^ 32) :
    model.qpNum < 2 ^ 32 := by
  have hshifted := model.shifted_lt
  have hne := model.qp_num_ne
  omega

end Limits

section Acceptance

variable {Image Feature : Type} {bundle : Bundle} {configuration : Configuration}
  {selection : Selection} {plan : FramePlan} {frame : Frame} {payload record : Bytes}

/-- The fields of a unit are valid exactly within the limits. -/
theorem validUnit_iff (hmem : selection.model ∈ bundle.bundleModels)
    (hplace : place frame.width.toNat frame.height.toNat selection.model.parameters =
      .ok selection.placement) (hqp : configuration.intraQp < 2 ^ 32) (hrecord : record ≠ []) :
    validateV1Fields (EncoderSession.unitOf configuration selection plan frame record) = .ok () ↔
      Encodable bundle selection.model frame configuration.intraQp
        (EncoderSession.frameTypeOf plan) := by
  have hword : (UInt32.ofNat configuration.intraQp).toNat = configuration.intraQp := by
    rw [UInt32.toNat_ofNat']
    exact Nat.mod_eq_of_lt hqp
  rw [validateV1Fields_eq_ok]
  constructor
  · rintro ⟨hmodel, hdimensions, hq, -, -⟩
    obtain ⟨hname, hlength⟩ := (validModelId_iff hmem).mp hmodel
    obtain ⟨hwidth, hheight⟩ := (dimensionsInRange_iff hplace).mp hdimensions
    refine ⟨hname, hlength, hwidth, hheight, ?_⟩
    change (UInt32.ofNat configuration.intraQp).toNat ≤ _ at hq
    rw [hword] at hq
    exact hq
  · rintro ⟨hname, hlength, hwidth, hheight, hq⟩
    refine ⟨(validModelId_iff hmem).mpr ⟨hname, hlength⟩,
      (dimensionsInRange_iff hplace).mpr ⟨hwidth, hheight⟩, ?_, rfl, hrecord⟩
    change (UInt32.ofNat configuration.intraQp).toNat ≤ _
    rw [hword]
    exact hq

theorem serialize_of_valid {unit : AccessUnit} (h : validateV1Fields unit = .ok ())
    (maximumBytes : ℕ) : serialize unit maximumBytes = .ok (bytesV1 unit) ∨
      serialize unit maximumBytes = .error limitError := by
  rw [serialize, h, ok_bind]
  unfold require
  split
  · exact .inl rfl
  · exact .inr rfl

theorem hasMagic_bytesV1 (unit : AccessUnit) : hasMagic (bytesV1 unit) = true := by
  simp [hasMagic, bytesV1, magic]

/-- A decoder that takes packets of the size of a unit reads the unit and its record back. -/
theorem parsePacket_unitOf {maximumBytes : ℕ} {bytes : Bytes}
    (hserialize : serialize (EncoderSession.unitOf configuration selection plan frame record)
      maximumBytes = .ok bytes) {decoding : Configuration}
    (hfits : bytes.length ≤ decoding.maxPacketBytes) {parsed : FrameRecord}
    (hparse : parseRecord record = .ok parsed) (timestamp : Timestamp) :
    DecoderSession.parsePacket decoding ⟨bytes, timestamp, EncoderSession.frameTypeOf plan⟩ =
      .ok (EncoderSession.unitOf configuration selection plan frame record, parsed) := by
  obtain ⟨hvalid, ⟨hidentity, hpayload, -⟩, rfl⟩ := serialize_eq_ok.mp hserialize
  have hagain : serialize (EncoderSession.unitOf configuration selection plan frame record)
      decoding.maxPacketBytes =
        .ok (bytesV1 (EncoderSession.unitOf configuration selection plan frame record)) := by
    refine serialize_eq_ok.mpr ⟨hvalid, ⟨hidentity, hpayload, ?_⟩, rfl⟩
    rw [← bytesV1_length]
    exact hfits
  have hread := deserialize_serialize hagain
  have hunit : DecoderSession.parseUnit decoding
      ⟨bytesV1 (EncoderSession.unitOf configuration selection plan frame record), timestamp,
        EncoderSession.frameTypeOf plan⟩ =
      .ok (EncoderSession.unitOf configuration selection plan frame record) := by
    simp only [DecoderSession.parseUnit, bind_eq_ok, require_eq_ok]
    exact ⟨(), hfits, (), hasMagic_bytesV1 _, _, hread, (), ⟨rfl, rfl⟩, rfl⟩
  rw [DecoderSession.parsePacket, hunit, ok_bind]
  change (parseRecord record >>= _) = _
  rw [hparse]
  rfl

theorem decodeSymbols_unitOf (hqp : configuration.intraQp < selection.model.parameters.qpNum)
    (hlt : configuration.intraQp < 2 ^ 32) (environment : Environment Image Feature) :
    DecoderSession.decodeSymbols environment selection.model
        (EncoderSession.unitOf configuration selection plan frame record)
        ⟨configuration.intraQp, payload⟩ =
      environment.entropyDecode selection.model payload configuration.intraQp := by
  have hword : (UInt32.ofNat configuration.intraQp).toNat = configuration.intraQp := by
    rw [UInt32.toNat_ofNat']
    exact Nat.mod_eq_of_lt hlt
  have hchecked : ((configuration.intraQp : ℤ) < selection.model.parameters.qpNum ∧
      (((EncoderSession.unitOf configuration selection plan frame record).qp.toNat : ℕ) : ℤ) =
        configuration.intraQp) := by
    refine ⟨by exact_mod_cast hqp, ?_⟩
    change ((UInt32.ofNat configuration.intraQp).toNat : ℤ) = _
    rw [hword]
  rw [DecoderSession.decodeSymbols, require, if_pos hchecked]
  rfl

end Acceptance

/-- For every loaded bundle, every reachable encoder session and every selected canvas, the access
unit around a record is accepted by the serializer and the decoder exactly within the limits. -/
theorem unit_accepted_iff {Image Feature Image' Feature' : Type} {files : BundleFiles}
    {root : String} {bundle : Bundle} (hload : loadBundle files root = .ok bundle)
    {configuration : Configuration} (hmodels : configuration.models = bundle.bundleModels)
    (calls : List (EncoderSession.Call Image Feature)) (environment : Environment Image Feature)
    (frame : Frame) {selection : Selection}
    (hselection : (run (EncoderSession.selectCanvas environment configuration frame.width.toNat
      frame.height.toNat) (final (EncoderSession.serve configuration) .new calls)).1 =
        .ok selection)
    (plan : FramePlan) {payload record : Bytes}
    (hrecord : serializeRecord configuration.intraQp payload = .ok record) :
    UnitAccepted Image' Feature' bundle selection
        (EncoderSession.unitOf configuration selection plan frame record)
        ⟨configuration.intraQp, payload⟩ ↔
      Encodable bundle selection.model frame configuration.intraQp
        (EncoderSession.frameTypeOf plan) := by
  obtain ⟨hmodel, hplace, hqp⟩ := EncoderSession.canvasFor_spec calls
    (EncoderSession.canvasFor_of_selectCanvas calls hselection)
  rw [hmodels] at hmodel
  obtain ⟨_, hchoice⟩ := selectModel_choice bundle.bundleModels_ordered hmodel
  have hmem := hchoice.mem
  have hlt : configuration.intraQp < 2 ^ 32 := by
    obtain ⟨loaded, hloaded, hsame⟩ := List.mem_map.mp hmem
    obtain ⟨_, hparameters⟩ := loadBundle_parameters hload loaded hloaded
    have hbound := qpNum_lt (parseParameters_totalQpNum_lt hparameters)
    have hnum : selection.model.parameters.qpNum = loaded.parameters.qpNum := by rw [← hsame]; rfl
    omega
  have hne : record ≠ [] := by
    obtain ⟨-, -, rfl⟩ := serializeRecord_eq_ok.mp hrecord
    intro hnil
    have hlength := congrArg List.length hnil
    simp at hlength
  have hiff : validateV1Fields (EncoderSession.unitOf configuration selection plan frame record) =
      .ok () ↔ Encodable bundle selection.model frame configuration.intraQp
        (EncoderSession.frameTypeOf plan) :=
    validUnit_iff hmem hplace hlt hne
  constructor
  · intro haccepted
    exact hiff.mp haccepted.fields
  · intro hencodable
    have hvalid := hiff.mpr hencodable
    have hmaximum : maximumQp (EncoderSession.frameTypeOf plan) ≤ 71 := by
      cases EncoderSession.frameTypeOf plan <;> decide
    have hsmall : configuration.intraQp ≤ 71 := hencodable.qp.trans hmaximum
    have hparse := (parseRecord_serializeRecord (by omega) (by omega) hrecord).mpr
      (by unfold droppedFrameQIndex; omega)
    refine ⟨hvalid, serialize_of_valid hvalid, ?_⟩
    intro maximumBytes bytes hserialize decoding hdecoding hfits
    exact ⟨fun timestamp => parsePacket_unitOf hserialize hfits hparse timestamp,
      modelFor_streamIdentity hdecoding hmem, hplace,
      fun environment' => decodeSymbols_unitOf hqp hlt environment'⟩

open EncoderSession in
/-- A bundle, a frame and settings within the limits. -/
theorem example_unit_accepted :
    ∃ selection, (run (selectCanvas (smallEnvironment 1) (exampleSettings exampleBundle) 2 2)
        (new : EncoderSession ℕ)).1 = .ok selection ∧
      UnitAccepted Unit ℕ exampleBundle selection
        (unitOf (exampleSettings exampleBundle) selection (selection.scheduler.plan none) smallFrame
          [1, 0, 0, 0, 1, 0, 0, 0, 7]) ⟨1, [7]⟩ := by
  have hload : loadBundle (exampleFiles "demo" [(64, 32), (32, 64)]) "b" = .ok exampleBundle :=
    eq_ok_get _
  have hlengths : ∀ model ∈ exampleBundle.bundleModels, model.canvasId.length = 5 := by
    decide +kernel
  obtain ⟨selection, hselection⟩ := isOk_iff.mp (show (run (selectCanvas (smallEnvironment 1)
    (exampleSettings exampleBundle) 2 2) (new : EncoderSession ℕ)).1.isOk = true by decide +kernel)
  refine ⟨selection, hselection, (unit_accepted_iff hload rfl [] (smallEnvironment 1) smallFrame
    hselection (selection.scheduler.plan none) rfl).mpr ⟨by decide +kernel, ?_, by decide, by decide,
      ?_⟩⟩
  · obtain ⟨hmodel, -, -⟩ := canvasFor_spec [] (canvasFor_of_selectCanvas [] hselection)
    obtain ⟨_, hchoice⟩ := selectModel_choice exampleBundle.bundleModels_ordered hmodel
    rw [hlengths _ hchoice.mem]
    decide +kernel
  · cases frameTypeOf (selection.scheduler.plan none) <;> decide

/-- A bundle whose name contains a blank. -/
def spacedBundle : Bundle :=
  ((loadBundle (exampleFiles "my bundle" [(32, 32)]) "b").toOption).get (by decide +kernel)

open EncoderSession in
/-- The bundle is loaded and its canvas selected, but no access unit can carry its identity. -/
theorem spaced_name_not_accepted :
    loadBundle (exampleFiles "my bundle" [(32, 32)]) "b" = .ok spacedBundle ∧
    ∃ selection, (run (selectCanvas (smallEnvironment 1) (exampleSettings spacedBundle) 2 2)
        (new : EncoderSession ℕ)).1 = .ok selection ∧
      ¬ UnitAccepted Unit ℕ spacedBundle selection
        (unitOf (exampleSettings spacedBundle) selection (selection.scheduler.plan none) smallFrame
          [1, 0, 0, 0, 1, 0, 0, 0, 7]) ⟨1, [7]⟩ := by
  refine ⟨eq_ok_get _, ?_⟩
  have hinvalid : ∀ model ∈ spacedBundle.bundleModels, validModelId model.streamIdentity = false := by
    decide +kernel
  obtain ⟨selection, hselection⟩ := isOk_iff.mp (show (run (selectCanvas (smallEnvironment 1)
    (exampleSettings spacedBundle) 2 2) (new : EncoderSession ℕ)).1.isOk = true by decide +kernel)
  refine ⟨selection, hselection, ?_⟩
  intro haccepted
  obtain ⟨hmodel, -, -⟩ := canvasFor_spec [] (canvasFor_of_selectCanvas [] hselection)
  obtain ⟨_, hchoice⟩ := selectModel_choice spacedBundle.bundleModels_ordered hmodel
  have hvalid := (validateV1Fields_eq_ok.mp haccepted.fields).modelId
  exact absurd hvalid (by rw [Bool.not_eq_true]; exact hinvalid _ hchoice.mem)

end Nvcr.Mlvc
