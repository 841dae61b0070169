import Nvcr.ByteStreams

/-!
# DCVC-RT private payloads

An intra payload and a predicted payload differ in their magic, the number of quantization
entries, and the flag bits; the header layout and the order of the checks are shared.
-/

namespace Nvcr.Rt

open LittleEndian StatefulResults ByteWriter

namespace Payload

def malformed (message : String) : Error := ⟨.malformedBitstream, message, "dcvcrt.payload"⟩

def minimumFrameDimension : ℕ := 64

def maximumFrameWidth : ℕ := 1920

def maximumFrameHeight : ℕ := 1080

/-- Even dimensions between 64x64 and 1920x1080; the backends use the same test. -/
def SupportedDimensions (width height : UInt32) : Prop :=
  minimumFrameDimension ≤ width.toNat ∧ minimumFrameDimension ≤ height.toNat ∧
    width.toNat ≤ maximumFrameWidth ∧ height.toNat ≤ maximumFrameHeight ∧
    width.toNat % 2 = 0 ∧ height.toNat % 2 = 0

instance (width height : UInt32) : Decidable (SupportedDimensions width height) :=
  inferInstanceAs (Decidable (_ ∧ _))

def readU32 : ByteReader UInt32 := fun bytes =>
  if bytes.length < 4 then .error (malformed "truncated DCVC-RT payload header")
  else .ok (UInt32.ofNat (leValue (bytes.take 4)), bytes.drop 4)

/-- The header fields and the entropy stream behind them. -/
structure Fields where
  width : UInt32
  height : UInt32
  qp : UInt32
  flags : UInt32
  rans : Bytes
  deriving DecidableEq, Repr

/-- What distinguishes one kind of payload from another. -/
structure Format where
  magic : Bytes
  magic_length : magic.length = 4
  qpCount : ℕ
  maximumFlags : ℕ
  invalidPayload : String
  invalidFields : String

def make (format : Format) (fields : Fields) : Bytes :=
  format.magic ++ (writeU32 fields.width ++ (writeU32 fields.height ++ (writeU32 fields.qp ++
    (writeU32 fields.flags ++ fields.rans))))

def readFields : ByteReader Fields := do
  let width ← readU32
  let height ← readU32
  let qp ← readU32
  let flags ← readU32
  let rans ← get
  pure ⟨width, height, qp, flags, rans⟩

/-- The field values a parser accepts. -/
def ValidFields (format : Format) (fields : Fields) : Prop :=
  SupportedDimensions fields.width fields.height ∧ fields.qp.toNat < format.qpCount ∧
    fields.flags.toNat ≤ format.maximumFlags

instance (format : Format) (fields : Fields) : Decidable (ValidFields format fields) :=
  inferInstanceAs (Decidable (_ ∧ _))

def parse (format : Format) (payload : Bytes) : Result Fields := do
  require (24 ≤ payload.length ∧ payload.take 4 = format.magic) (malformed format.invalidPayload)
  let (fields, _) ← readFields.run (payload.drop 4)
  require (ValidFields format fields) (malformed format.invalidFields)
  pure fields

@[simp] theorem run_readU32_append (value : UInt32) (rest : Bytes) :
    readU32.run (writeU32 value ++ rest) = .ok (value, rest) := by
  have hlength : (writeU32 value).length = 4 := writeU32_length value
  have htake : (writeU32 value ++ rest).take 4 = writeU32 value := List.take_left' hlength
  have hdrop : (writeU32 value ++ rest).drop 4 = rest := List.drop_left' hlength
  have hvalue : leValue (writeU32 value) = value.toNat :=
    leValue_leBytes_of_lt (by simpa using value.toNat_lt)
  have henough : ¬ (writeU32 value ++ rest).length < 4 := by
    rw [List.length_append, hlength]
    omega
  simp only [readU32, StateT.run, if_neg henough, htake, hdrop, hvalue, UInt32.ofNat_toNat]

/-- The fields are read as they were written, valid or not. -/
theorem readFields_make (format : Format) (fields : Fields) :
    readFields.run ((make format fields).drop 4) = .ok (fields, fields.rans) := by
  have hdrop : (make format fields).drop 4 =
      writeU32 fields.width ++ (writeU32 fields.height ++ (writeU32 fields.qp ++
        (writeU32 fields.flags ++ fields.rans))) :=
    List.drop_left' format.magic_length
  rw [hdrop]
  simp only [readFields]
  rw [ByteReader.run_bind_of_ok (run_readU32_append _ _),
    ByteReader.run_bind_of_ok (run_readU32_append _ _),
    ByteReader.run_bind_of_ok (run_readU32_append _ _),
    ByteReader.run_bind_of_ok (run_readU32_append _ _)]
  rfl

/-- Reading back what was written gives the same fields. -/
theorem parse_make {format : Format} {fields : Fields} (h : ValidFields format fields)
    (hrans : 4 ≤ fields.rans.length) : parse format (make format fields) = .ok fields := by
  have htake : (make format fields).take 4 = format.magic := List.take_left' format.magic_length
  have hlength : 24 ≤ (make format fields).length := by
    simp [make, format.magic_length]
    omega
  simp only [parse, require, if_pos (And.intro hlength htake), readFields_make, ok_bind, if_pos h]
  rfl

/-- Whatever is read back is what was made. -/
theorem parse_make_eq_ok {format : Format} {fields fields' : Fields}
    (h : parse format (make format fields) = .ok fields') : fields' = fields := by
  obtain ⟨_, -, hrest⟩ := bind_eq_ok.mp h
  rw [readFields_make, ok_bind] at hrest
  obtain ⟨_, -, hfields⟩ := bind_eq_ok.mp hrest
  exact (Except.ok.inj hfields).symm

/-- What is accepted has valid fields. -/
theorem parse_eq_ok {format : Format} {payload : Bytes} {fields : Fields}
    (h : parse format payload = .ok fields) : ValidFields format fields := by
  obtain ⟨_, -, hrest⟩ := bind_eq_ok.mp h
  obtain ⟨read, -, hrest⟩ := bind_eq_ok.mp hrest
  obtain ⟨_, hvalid, hfields⟩ := bind_eq_ok.mp hrest
  cases hfields
  exact require_eq_ok.mp hvalid

theorem make_length (format : Format) (fields : Fields) :
    (make format fields).length = 20 + fields.rans.length := by
  simp [make, format.magic_length]
  omega

def intraFormat : Format where
  magic := [0x4e, 0x56, 0x49, 0x31]
  magic_length := rfl
  qpCount := 64
  maximumFlags := 1
  invalidPayload := "invalid NVCR I-frame payload"
  invalidFields := "invalid NVCR I-frame fields"

def predictedFormat : Format where
  magic := [0x4e, 0x56, 0x50, 0x31]
  magic_length := rfl
  qpCount := 72
  maximumFlags := 3
  invalidPayload := "invalid NVCR P-frame payload"
  invalidFields := "invalid NVCR P-frame fields"

end Payload

open Payload

structure IntraPayload where
  width : UInt32
  height : UInt32
  qp : UInt32
  twoCoders : Bool
  rans : Bytes
  deriving DecidableEq, Repr

structure PredictedPayload where
  width : UInt32
  height : UInt32
  qp : UInt32
  twoCoders : Bool
  useFrameReference : Bool
  rans : Bytes
  deriving DecidableEq, Repr

def makeIntraPayload (payload : IntraPayload) : Bytes :=
  make intraFormat
    ⟨payload.width, payload.height, payload.qp, if payload.twoCoders then 1 else 0, payload.rans⟩

def parseIntraPayload (bytes : Bytes) : Result IntraPayload := do
  let fields ← parse intraFormat bytes
  pure ⟨fields.width, fields.height, fields.qp, fields.flags = 1, fields.rans⟩

def makePredictedPayload (payload : PredictedPayload) : Bytes :=
  make predictedFormat
    ⟨payload.width, payload.height, payload.qp,
      (if payload.twoCoders then 1 else 0) ||| (if payload.useFrameReference then 2 else 0),
      payload.rans⟩

def parsePredictedPayload (bytes : Bytes) : Result PredictedPayload := do
  let fields ← parse predictedFormat bytes
  pure ⟨fields.width, fields.height, fields.qp, fields.flags &&& 1 ≠ 0, fields.flags &&& 2 ≠ 0,
    fields.rans⟩

/-- An intra payload of supported size and quantization is read back as it was made. -/
theorem parseIntraPayload_make {payload : IntraPayload}
    (hsize : SupportedDimensions payload.width payload.height) (hqp : payload.qp.toNat < 64)
    (hrans : 4 ≤ payload.rans.length) :
    parseIntraPayload (makeIntraPayload payload) = .ok payload := by
  have hflags : (if payload.twoCoders then 1 else 0 : UInt32).toNat ≤ 1 := by
    cases payload.twoCoders <;> decide
  have htwo : decide ((if payload.twoCoders then 1 else 0 : UInt32) = 1) = payload.twoCoders := by
    cases payload.twoCoders <;> decide
  rw [parseIntraPayload, makeIntraPayload, parse_make ⟨hsize, hqp, hflags⟩ hrans, ok_bind]
  simp only [htwo]
  rfl

/-- Whatever is read back from an intra payload has the size it was made with. -/
theorem parseIntraPayload_make_eq_ok {payload payload' : IntraPayload}
    (h : parseIntraPayload (makeIntraPayload payload) = .ok payload') :
    payload'.width = payload.width ∧ payload'.height = payload.height := by
  obtain ⟨fields, hparse, hpayload⟩ := bind_eq_ok.mp h
  cases parse_make_eq_ok hparse
  cases hpayload
  exact ⟨rfl, rfl⟩

/-- A predicted payload of supported size and quantization is read back as it was made. -/
theorem parsePredictedPayload_make {payload : PredictedPayload}
    (hsize : SupportedDimensions payload.width payload.height) (hqp : payload.qp.toNat < 72)
    (hrans : 4 ≤ payload.rans.length) :
    parsePredictedPayload (makePredictedPayload payload) = .ok payload := by
  let flags : UInt32 :=
    (if payload.twoCoders then 1 else 0) ||| (if payload.useFrameReference then 2 else 0)
  have hflags : flags.toNat ≤ 3 := by
    cases htwo : payload.twoCoders <;> cases href : payload.useFrameReference <;>
      simp [flags, htwo, href]
  have htwo : decide (flags &&& 1 ≠ 0) = payload.twoCoders := by
    cases htwo : payload.twoCoders <;> cases href : payload.useFrameReference <;>
      simp [flags, htwo, href] <;> decide
  have href : decide (flags &&& 2 ≠ 0) = payload.useFrameReference := by
    cases htwo : payload.twoCoders <;> cases href : payload.useFrameReference <;>
      simp [flags, htwo, href] <;> decide
  rw [parsePredictedPayload, makePredictedPayload, parse_make ⟨hsize, hqp, hflags⟩ hrans, ok_bind]
  change Except.ok (PredictedPayload.mk _ _ _ (decide (flags &&& 1 ≠ 0))
    (decide (flags &&& 2 ≠ 0)) _) = _
  rw [htwo, href]

/-- Every accepted intra payload has a supported size and a table entry for its quantization. -/
theorem parseIntraPayload_eq_ok {bytes : Bytes} {payload : IntraPayload}
    (h : parseIntraPayload bytes = .ok payload) :
    SupportedDimensions payload.width payload.height ∧ payload.qp.toNat < 64 := by
  obtain ⟨fields, hparse, hpayload⟩ := bind_eq_ok.mp h
  have hvalid := parse_eq_ok hparse
  cases hpayload
  exact ⟨hvalid.1, hvalid.2.1⟩

/-- Every accepted predicted payload has a supported size and a table entry for its
quantization. -/
theorem parsePredictedPayload_eq_ok {bytes : Bytes} {payload : PredictedPayload}
    (h : parsePredictedPayload bytes = .ok payload) :
    SupportedDimensions payload.width payload.height ∧ payload.qp.toNat < 72 := by
  obtain ⟨fields, hparse, hpayload⟩ := bind_eq_ok.mp h
  have hvalid := parse_eq_ok hparse
  cases hpayload
  exact ⟨hvalid.1, hvalid.2.1⟩

end Nvcr.Rt
