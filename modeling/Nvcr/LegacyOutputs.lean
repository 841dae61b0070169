import Nvcr.LegacySessions
import Nvcr.OutputSlots

/-!
# Outputs of the legacy sessions

A legacy session keeps one output. A second send replaces it, a flush of either session and a
reset of the other one discard it.
-/

namespace Nvcr.Legacy.SessionState

open StatefulResults Codec Rt TransitionRuns OutputQueues OutputSlots

variable {π σ : Type} (B : Backend π σ) (configuration : SessionConfiguration)

/-- A request that is not answered by an output asks for input or reports the end. -/
def NoOutput (e : Error) : Prop := e.code = .tryAgain ∨ e.code = .endOfStream

/-- What a call means for the outputs of the encoder session. -/
def encoderEvent (state : SessionState σ) (call : Call π) : Event Packet :=
  match call, (step B configuration state call).1 with
  | .sendFrame p frame, .status (.ok ()) =>
      match ((SessionCore.encode B.toCodecBackend configuration p frame).run state.runtime).1 with
      | .ok packet => .produced packet
      | .error _ => .other
  | .receiveAccessUnit, .packet (.ok packet) => .received packet
  | .resetEncoder, _ => .reset
  | _, _ => .other

/-- What a call means for the outputs of the decoder session. -/
def decoderEvent (state : SessionState σ) (call : Call π) : Event Frame :=
  match call, (step B configuration state call).1 with
  | .sendAccessUnit p packet, .status (.ok ()) =>
      match ((SessionCore.decode B.toCodecBackend configuration p packet).run state.runtime).1 with
      | .ok frame => .produced frame
      | .error _ => .other
  | .receiveFrame, .frame (.ok frame) => .received frame
  | .resetDecoder, _ => .reset
  | _, _ => .other

/-- The encoder's slot is empty when a frame is accepted, when the sessions are flushed, and when
the decoder is reset. -/
def EncoderSlotFree (state : SessionState σ) : Call π → Prop
  | .sendFrame p frame => state.pendingPacket = none ∨ ∃ e,
      ((SessionCore.encode B.toCodecBackend configuration p frame).run state.runtime).1 = .error e
  | .flushEncoder p | .flushDecoder p => state.pendingPacket = none ∨ ∃ e,
      ((B.flush p).run state.runtime.backend).1 = .error e
  | .resetDecoder => state.pendingPacket = none
  | .resetEncoder | .receiveAccessUnit | .sendAccessUnit _ _ | .receiveFrame => True

/-- The decoder's slot is empty when a packet is accepted, when the sessions are flushed, and when
the encoder is reset. -/
def DecoderSlotFree (state : SessionState σ) : Call π → Prop
  | .sendAccessUnit p packet => state.pendingFrame = none ∨ ∃ e,
      ((SessionCore.decode B.toCodecBackend configuration p packet).run state.runtime).1 = .error e
  | .flushEncoder p | .flushDecoder p => state.pendingFrame = none ∨ ∃ e,
      ((B.flush p).run state.runtime.backend).1 = .error e
  | .resetEncoder => state.pendingFrame = none
  | .resetDecoder | .receiveAccessUnit | .sendFrame _ _ | .receiveFrame => True

/-- A send fills the slot if the runtime has an output for it. -/
def sendEffect {α : Type} : Result α → Effect α
  | .ok output => .filled output
  | .error _ => .kept

/-- A flush empties the slot if the backend agrees. -/
def flushEffect {α : Type} : Result Unit → Effect α
  | .ok () => .discarded
  | .error _ => .kept

def encoderEffect (state : SessionState σ) : Call π → Effect Packet
  | .sendFrame p frame => sendEffect
      ((SessionCore.encode B.toCodecBackend configuration p frame).run state.runtime).1
  | .receiveAccessUnit => .taken
  | .flushEncoder p | .flushDecoder p => flushEffect ((B.flush p).run state.runtime.backend).1
  | .resetEncoder => .restarted
  | .resetDecoder => .discarded
  | .sendAccessUnit _ _ | .receiveFrame => .kept

def decoderEffect (state : SessionState σ) : Call π → Effect Frame
  | .sendAccessUnit p packet => sendEffect
      ((SessionCore.decode B.toCodecBackend configuration p packet).run state.runtime).1
  | .receiveFrame => .taken
  | .flushEncoder p | .flushDecoder p => flushEffect ((B.flush p).run state.runtime.backend).1
  | .resetDecoder => .restarted
  | .resetEncoder => .discarded
  | .sendFrame _ _ | .receiveAccessUnit => .kept

theorem sendEffect_overwrites_iff {α : Type} (slot : Option α) (result : Result α) :
    ((sendEffect result).Overwrites → slot = none) ↔ slot = none ∨ ∃ e, result = .error e := by
  cases result with
  | ok output => simp [sendEffect, Effect.Overwrites]
  | error e => simp [sendEffect, Effect.Overwrites]

theorem flushEffect_overwrites_iff {α : Type} (slot : Option α) (result : Result Unit) :
    ((flushEffect result : Effect α).Overwrites → slot = none) ↔
      slot = none ∨ ∃ e, result = .error e := by
  cases result with
  | ok u => simp [flushEffect, Effect.Overwrites]
  | error e => simp [flushEffect, Effect.Overwrites]

theorem encoderSlotFree_iff (state : SessionState σ) (call : Call π) :
    EncoderSlotFree B configuration state call ↔
      ((encoderEffect B configuration state call).Overwrites → state.pendingPacket = none) := by
  cases call with
  | sendFrame p frame => exact (sendEffect_overwrites_iff _ _).symm
  | flushEncoder p | flushDecoder p => exact (flushEffect_overwrites_iff _ _).symm
  | resetDecoder => exact ⟨fun hnone _ => hnone, fun hnone => hnone trivial⟩
  | resetEncoder | receiveAccessUnit | sendAccessUnit | receiveFrame =>
      exact ⟨fun _ hnever => hnever.elim, fun _ => trivial⟩

theorem decoderSlotFree_iff (state : SessionState σ) (call : Call π) :
    DecoderSlotFree B configuration state call ↔
      ((decoderEffect B configuration state call).Overwrites → state.pendingFrame = none) := by
  cases call with
  | sendAccessUnit p packet => exact (sendEffect_overwrites_iff _ _).symm
  | flushEncoder p | flushDecoder p => exact (flushEffect_overwrites_iff _ _).symm
  | resetEncoder => exact ⟨fun hnone _ => hnone, fun hnone => hnone trivial⟩
  | resetDecoder | receiveAccessUnit | sendFrame | receiveFrame =>
      exact ⟨fun _ hnever => hnever.elim, fun _ => trivial⟩

theorem receiveAccessUnit_serves :
    Serves (receiveAccessUnit (σ := σ)).run NoOutput SessionState.pendingPacket where
  some := by
    intro state packet hslot
    simp only [receiveAccessUnit, Action.run, hslot, and_self]
  none := by
    intro state hslot
    simp only [receiveAccessUnit, Action.run, hslot]
    split
    · exact ⟨_, rfl, .inr rfl⟩
    · exact ⟨_, rfl, .inl rfl⟩

theorem receiveFrame_serves :
    Serves (receiveFrame (σ := σ)).run NoOutput SessionState.pendingFrame where
  some := by
    intro state frame hslot
    simp only [receiveFrame, Action.run, hslot, and_self]
  none := by
    intro state hslot
    simp only [receiveFrame, Action.run, hslot]
    split
    · exact ⟨_, rfl, .inr rfl⟩
    · exact ⟨_, rfl, .inl rfl⟩

/-- A call changes each slot as its effect says. -/
theorem step_slots (state : SessionState σ) (call : Call π) :
    (step B configuration state call).2.pendingPacket =
        (encoderEffect B configuration state call).apply state.pendingPacket ∧
      (step B configuration state call).2.pendingFrame =
        (decoderEffect B configuration state call).apply state.pendingFrame := by
  cases call with
  | sendFrame p frame =>
      simp only [step, encoderEffect, decoderEffect, sendFrame_run]
      rcases (SessionCore.encode B.toCodecBackend configuration p frame).run state.runtime
        with ⟨e | packet, runtime⟩
      · exact ⟨rfl, rfl⟩
      · exact ⟨rfl, rfl⟩
  | sendAccessUnit p packet =>
      simp only [step, encoderEffect, decoderEffect, sendAccessUnit_run]
      rcases (SessionCore.decode B.toCodecBackend configuration p packet).run state.runtime
        with ⟨e | frame, runtime⟩
      · exact ⟨rfl, rfl⟩
      · exact ⟨rfl, rfl⟩
  | flushEncoder p | flushDecoder p =>
      simp only [step, encoderEffect, decoderEffect, flush_run]
      rcases (B.flush p).run state.runtime.backend with ⟨e | u, backend⟩
      · exact ⟨rfl, rfl⟩
      · exact ⟨rfl, rfl⟩
  | receiveAccessUnit =>
      simp only [step, encoderEffect, decoderEffect, receiveAccessUnit, Action.run]
      cases hslot : state.pendingPacket with
      | none =>
          cases hflushed : state.encoderFlushed with
          | false => exact ⟨hslot, rfl⟩
          | true => exact ⟨hslot, rfl⟩
      | some packet => exact ⟨rfl, rfl⟩
  | receiveFrame =>
      simp only [step, encoderEffect, decoderEffect, receiveFrame, Action.run]
      cases hslot : state.pendingFrame with
      | none =>
          cases hflushed : state.decoderFlushed with
          | false => exact ⟨rfl, hslot⟩
          | true => exact ⟨rfl, hslot⟩
      | some frame => exact ⟨rfl, rfl⟩
  | resetEncoder | resetDecoder => exact ⟨rfl, rfl⟩

theorem encoderEvent_eq (state : SessionState σ) (call : Call π) :
    encoderEvent B configuration state call =
      (encoderEffect B configuration state call).event state.pendingPacket := by
  cases call with
  | sendFrame p frame =>
      simp only [encoderEvent, step, encoderEffect, sendFrame_run]
      rcases hrun : (SessionCore.encode B.toCodecBackend configuration p frame).run state.runtime
        with ⟨e | packet, runtime⟩
      · rfl
      · simp only [Prod.map_fst, hrun]
        rfl
  | sendAccessUnit p packet => rfl
  | flushEncoder p | flushDecoder p =>
      simp only [encoderEvent, encoderEffect]
      rcases (B.flush p).run state.runtime.backend with ⟨e | u, backend⟩
      · rfl
      · rfl
  | receiveAccessUnit =>
      simp only [encoderEvent, step, encoderEffect, receiveAccessUnit, Action.run]
      cases hslot : state.pendingPacket with
      | none =>
          cases hflushed : state.encoderFlushed with
          | false => rfl
          | true => rfl
      | some packet => rfl
  | receiveFrame | resetEncoder | resetDecoder => rfl

theorem decoderEvent_eq (state : SessionState σ) (call : Call π) :
    decoderEvent B configuration state call =
      (decoderEffect B configuration state call).event state.pendingFrame := by
  cases call with
  | sendAccessUnit p packet =>
      simp only [decoderEvent, step, decoderEffect, sendAccessUnit_run]
      rcases hrun : (SessionCore.decode B.toCodecBackend configuration p packet).run state.runtime
        with ⟨e | frame, runtime⟩
      · rfl
      · simp only [Prod.map_fst, hrun]
        rfl
  | sendFrame p frame => rfl
  | flushEncoder p | flushDecoder p =>
      simp only [decoderEvent, decoderEffect]
      rcases (B.flush p).run state.runtime.backend with ⟨e | u, backend⟩
      · rfl
      · rfl
  | receiveFrame =>
      simp only [decoderEvent, step, decoderEffect, receiveFrame, Action.run]
      cases hslot : state.pendingFrame with
      | none =>
          cases hflushed : state.decoderFlushed with
          | false => rfl
          | true => rfl
      | some frame => rfl
  | receiveAccessUnit | resetEncoder | resetDecoder => rfl

/-- In every run of the two sessions, the outputs that an encoder or decoder session hands out are
those of the successful sends since its last reset, in order, each once, exactly when the slot of
that session is empty at every call that fills or discards it. -/
theorem legacy_outputs_delivered_iff (backend : σ) (calls : List (Call π)) :
    ((∀ past, past <+: calls →
        Contract (receiveAccessUnit (σ := σ)).run NoOutput
          (final (step B configuration) (initial configuration backend) past)
          (ledger (step B configuration) (encoderEvent B configuration)
            (initial configuration backend) past)) ↔
      Along (EncoderSlotFree B configuration) (step B configuration)
        (initial configuration backend) calls) ∧
    ((∀ past, past <+: calls →
        Contract (receiveFrame (σ := σ)).run NoOutput
          (final (step B configuration) (initial configuration backend) past)
          (ledger (step B configuration) (decoderEvent B configuration)
            (initial configuration backend) past)) ↔
      Along (DecoderSlotFree B configuration) (step B configuration)
        (initial configuration backend) calls) := by
  have hencoder : encoderEvent B configuration = fun state call =>
      (encoderEffect B configuration state call).event state.pendingPacket := by
    funext state call
    exact encoderEvent_eq B configuration state call
  have hdecoder : decoderEvent B configuration = fun state call =>
      (decoderEffect B configuration state call).event state.pendingFrame := by
    funext state call
    exact decoderEvent_eq B configuration state call
  have hencoderFree : EncoderSlotFree B configuration = fun state call =>
      ((encoderEffect B configuration state call).Overwrites → state.pendingPacket = none) := by
    funext state call
    exact propext (encoderSlotFree_iff B configuration state call)
  have hdecoderFree : DecoderSlotFree B configuration = fun state call =>
      ((decoderEffect B configuration state call).Overwrites → state.pendingFrame = none) := by
    funext state call
    exact propext (decoderSlotFree_iff B configuration state call)
  rw [hencoder, hdecoder, hencoderFree, hdecoderFree]
  constructor
  · have hinitial : Settled (initial configuration backend).pendingPacket ({} : Ledger Packet) := rfl
    have hall := contract_along_iff receiveAccessUnit_serves
      (fun state call => (step_slots B configuration state call).1) hinitial calls
    simpa only [final_withLedger, ledger] using hall
  · have hinitial : Settled (initial configuration backend).pendingFrame ({} : Ledger Frame) := rfl
    have hall := contract_along_iff receiveFrame_serves
      (fun state call => (step_slots B configuration state call).2) hinitial calls
    simpa only [final_withLedger, ledger] using hall

/-- A gray frame of four equal pixels. -/
def pixelFrame (value : UInt8) : Frame := ⟨2, 2, .gray8, 0, [value, value, value, value], .inl rfl⟩

/-- A backend that codes a frame as its pixels and keeps nothing. -/
def pixelBackend : Backend Unit Unit where
  encode _ frame _ _ := pure ⟨frame.data, frame, [], 0⟩
  decode _ payload _ _ _ := pure ⟨pixelFrame (payload.headD 0), []⟩
  flush _ := pure ()
  resetEncoder := id
  resetDecoder := id
  reset := id

def pixelConfiguration : SessionConfiguration := ⟨1, [109], 1000, true⟩

/-- The first of two frames that are sent before a packet is received has no packet. -/
theorem second_send_drops_packet :
    ¬ ∀ (π σ : Type) (B : Backend π σ) (configuration : SessionConfiguration) (backend : σ)
        (calls : List (Call π)),
      Contract (receiveAccessUnit (σ := σ)).run NoOutput
        (final (step B configuration) (initial configuration backend) calls)
        (ledger (step B configuration) (encoderEvent B configuration)
          (initial configuration backend) calls) := by
  intro h
  have hcontract := h Unit Unit pixelBackend pixelConfiguration ()
    [.sendFrame () (pixelFrame 0), .sendFrame () (pixelFrame 1)]
  have hsettled := (receiveAccessUnit_serves.contract_iff _ _).mp hcontract
  exact absurd (congrArg List.length hsettled) (by decide)

end Nvcr.Legacy.SessionState
