import Nvcr.LegacyOutputs
import Nvcr.RtHostLaws

/-!
# Lifecycle calls of the legacy sessions

A flush or a reset of one legacy session also empties the slot of the other one, sets its flag and
ends its sequence. The other session cannot notice it if it is idle: it holds no output and no
reference, and its flag has the value that the call gives it.
-/

namespace Nvcr.Legacy

open StatefulResults Codec Rt TransitionRuns

/-- The laws of a backend whose directions are separate and whose common reset only forgets. -/
structure Backend.Laws {π σ : Type} (B : Backend π σ) extends
    CodecBackend.SeparateLaws B.toCodecBackend where
  reset_kin : ∀ {b b'}, Kin b b' → Kin (B.reset b) b'

/-- The host backend behind legacy sessions. -/
def hostBackend (A : HostArithmetic) (R : RansCoder) (setup : BackendSetup A) :
    Backend (Provider A) (HostBackend A R) where
  toCodecBackend := Rt.hostBackend A R setup
  reset backend := HostBackend.resetDecoder (HostBackend.resetEncoder backend)

/-- The host backend meets the laws of a legacy backend. -/
def hostBackend.laws {A : HostArithmetic} {R : RansCoder} (setup : BackendSetup A) :
    (hostBackend A R setup).Laws where
  toSeparateLaws := HostBackend.laws setup
  reset_kin h := h

namespace SessionState

variable {π σ : Type} {B : Backend π σ} {configuration : SessionConfiguration}

/-- The decoder session notices the call at most in its results: a call of its own or a lifecycle
call. -/
def seenByDecoder : Call π → Bool
  | .sendFrame _ _ | .receiveAccessUnit => false
  | .flushEncoder _ | .resetEncoder | .sendAccessUnit _ _ | .receiveFrame | .flushDecoder _
  | .resetDecoder => true

def seenByEncoder : Call π → Bool
  | .sendAccessUnit _ _ | .receiveFrame => false
  | .flushEncoder _ | .resetEncoder | .sendFrame _ _ | .receiveAccessUnit | .flushDecoder _
  | .resetDecoder => true

/-- The encoder sessions of two pairs cannot be told apart. -/
structure EncoderAlike (laws : B.Laws) (d : UInt64) (state state' : SessionState σ) : Prop where
  core : SessionCore.EncoderAlike laws.toLaws d state.runtime state'.runtime
  pending : state.pendingPacket = state'.pendingPacket
  flushed : state.encoderFlushed = state'.encoderFlushed

/-- The decoder sessions of two pairs cannot be told apart. -/
structure DecoderAlike (laws : B.Laws) (d : UInt64) (state state' : SessionState σ) : Prop where
  core : SessionCore.DecoderAlike laws.toLaws d state.runtime state'.runtime
  pending : state.pendingFrame = state'.pendingFrame
  flushed : state.decoderFlushed = state'.decoderFlushed

section Alike

variable {laws : B.Laws} {d : UInt64} {state state' : SessionState σ}

theorem flush_run_of_laws (laws : B.Laws) (p : π) (state : SessionState σ) :
    (flush B p).run state =
      match laws.flushAnswer p with
      | .error e => (.error e, state)
      | .ok () =>
          (.ok (), {
            runtime := Runtime.reset B state.runtime
            encoderFlushed := true
            decoderFlushed := true }) := by
  rw [flush_run, laws.flush]
  cases laws.flushAnswer p <;> rfl

theorem reset_kin_both (laws : B.Laws) {b b' : σ} (h : laws.Kin b b') :
    laws.Kin (B.reset b) (B.reset b') :=
  laws.kin_symm (laws.reset_kin (laws.kin_symm (laws.reset_kin h)))

theorem EncoderAlike.reset (h : EncoderAlike laws d state state') :
    SessionCore.EncoderAlike laws.toLaws d (Runtime.reset B state.runtime)
      (Runtime.reset B state'.runtime) where
  state := by simp only [Runtime.reset, h.core.state, SequenceState.reset_shifted]
  kin := reset_kin_both laws h.core.kin
  same hnever := by cases hnever

theorem DecoderAlike.reset (h : DecoderAlike laws d state state') :
    SessionCore.DecoderAlike laws.toLaws d (Runtime.reset B state.runtime)
      (Runtime.reset B state'.runtime) where
  state := by simp only [Runtime.reset, h.core.state, SequenceState.reset_shifted]
  kin := reset_kin_both laws h.core.kin
  same hnever := by cases hnever

/-- A call that the encoder session may notice is answered alike and keeps the sessions alike. -/
theorem EncoderAlike.step (h : EncoderAlike laws d state state') {call : Call π}
    (hcall : seenByEncoder call = true) :
    (step B configuration state call).1 = (step B configuration state' call).1 ∧
      EncoderAlike laws d (step B configuration state call).2
        (step B configuration state' call).2 := by
  cases call with
  | sendFrame p frame =>
      obtain ⟨hresult, hcore⟩ := SessionCore.encode_alike configuration h.core p frame
      simp only [SessionState.step, sendFrame_run]
      rcases hrun : (SessionCore.encode B.toCodecBackend configuration p frame).run state.runtime
        with ⟨result, runtime⟩
      rcases hrun' : (SessionCore.encode B.toCodecBackend configuration p frame).run state'.runtime
        with ⟨result', runtime'⟩
      rw [hrun, hrun'] at hresult hcore
      cases hresult
      cases result with
      | error e => exact ⟨rfl, hcore, h.pending, h.flushed⟩
      | ok packet => exact ⟨rfl, hcore, rfl, rfl⟩
  | receiveAccessUnit =>
      simp only [SessionState.step, receiveAccessUnit, Action.run, h.pending, h.flushed]
      cases hpending : state'.pendingPacket with
      | some packet => exact ⟨rfl, h.core, rfl, rfl⟩
      | none => cases hflushed : state'.encoderFlushed <;> exact ⟨rfl, h⟩
  | flushEncoder p | flushDecoder p =>
      simp only [SessionState.step, flush_run_of_laws laws]
      cases laws.flushAnswer p with
      | error e => exact ⟨rfl, h⟩
      | ok u => exact ⟨rfl, h.reset, rfl, rfl⟩
  | resetEncoder | resetDecoder => exact ⟨rfl, h.reset, rfl, rfl⟩
  | sendAccessUnit | receiveFrame => cases hcall

/-- The encoder session does not notice that a packet is decoded or a frame is received. -/
theorem EncoderAlike.other (h : EncoderAlike laws d state state') {call : Call π}
    (hcall : seenByEncoder call = false) :
    EncoderAlike laws d (SessionState.step B configuration state call).2 state' := by
  cases call with
  | sendAccessUnit p packet =>
      have hcore := h.core.decode configuration p packet
      simp only [SessionState.step, sendAccessUnit_run]
      rcases hrun : (SessionCore.decode B.toCodecBackend configuration p packet).run state.runtime
        with ⟨e | frame, runtime⟩
      · rw [hrun] at hcore
        exact ⟨hcore, h.pending, h.flushed⟩
      · rw [hrun] at hcore
        exact ⟨hcore, h.pending, h.flushed⟩
  | receiveFrame =>
      simp only [SessionState.step, receiveFrame, Action.run]
      cases state.pendingFrame with
      | some frame => exact ⟨h.core, h.pending, h.flushed⟩
      | none => cases state.decoderFlushed <;> exact h
  | sendFrame | receiveAccessUnit | flushEncoder | resetEncoder | flushDecoder | resetDecoder =>
      cases hcall

/-- A call that the decoder session may notice is answered alike and keeps the sessions alike. -/
theorem DecoderAlike.step (h : DecoderAlike laws d state state') {call : Call π}
    (hcall : seenByDecoder call = true) :
    (step B configuration state call).1 = (step B configuration state' call).1 ∧
      DecoderAlike laws d (step B configuration state call).2
        (step B configuration state' call).2 := by
  cases call with
  | sendAccessUnit p packet =>
      obtain ⟨hresult, hcore⟩ := SessionCore.decode_alike configuration h.core p packet
      simp only [SessionState.step, sendAccessUnit_run]
      rcases hrun : (SessionCore.decode B.toCodecBackend configuration p packet).run state.runtime
        with ⟨result, runtime⟩
      rcases hrun' : (SessionCore.decode B.toCodecBackend configuration p packet).run state'.runtime
        with ⟨result', runtime'⟩
      rw [hrun, hrun'] at hresult hcore
      cases hresult
      cases result with
      | error e => exact ⟨rfl, hcore, h.pending, h.flushed⟩
      | ok frame => exact ⟨rfl, hcore, rfl, rfl⟩
  | receiveFrame =>
      simp only [SessionState.step, receiveFrame, Action.run, h.pending, h.flushed]
      cases hpending : state'.pendingFrame with
      | some frame => exact ⟨rfl, h.core, rfl, rfl⟩
      | none => cases hflushed : state'.decoderFlushed <;> exact ⟨rfl, h⟩
  | flushEncoder p | flushDecoder p =>
      simp only [SessionState.step, flush_run_of_laws laws]
      cases laws.flushAnswer p with
      | error e => exact ⟨rfl, h⟩
      | ok u => exact ⟨rfl, h.reset, rfl, rfl⟩
  | resetEncoder | resetDecoder => exact ⟨rfl, h.reset, rfl, rfl⟩
  | sendFrame | receiveAccessUnit => cases hcall

/-- The decoder session does not notice that a frame is encoded or a packet is received. -/
theorem DecoderAlike.other (h : DecoderAlike laws d state state') {call : Call π}
    (hcall : seenByDecoder call = false) :
    DecoderAlike laws d (SessionState.step B configuration state call).2 state' := by
  cases call with
  | sendFrame p frame =>
      have hcore := h.core.encode configuration p frame
      simp only [SessionState.step, sendFrame_run]
      rcases hrun : (SessionCore.encode B.toCodecBackend configuration p frame).run state.runtime
        with ⟨e | packet, runtime⟩
      · rw [hrun] at hcore
        exact ⟨hcore, h.pending, h.flushed⟩
      · rw [hrun] at hcore
        exact ⟨hcore, h.pending, h.flushed⟩
  | receiveAccessUnit =>
      simp only [SessionState.step, receiveAccessUnit, Action.run]
      cases state.pendingPacket with
      | some packet => exact ⟨h.core, h.pending, h.flushed⟩
      | none => cases state.encoderFlushed <;> exact h
  | sendAccessUnit | receiveFrame | flushEncoder | resetEncoder | flushDecoder | resetDecoder =>
      cases hcall

theorem alike_refl (laws : B.Laws) (state : SessionState σ) :
    EncoderAlike laws 0 state state ∧ DecoderAlike laws 0 state state := by
  have hshift : ∀ sequence : SequenceState, sequence = sequence.shifted 0 := by
    intro sequence
    rw [SequenceState.shifted, UInt64.add_zero]
  exact ⟨⟨⟨hshift _, laws.kin_refl _, fun _ => laws.encoder_refl _⟩, rfl, rfl⟩,
    ⟨⟨hshift _, laws.kin_refl _, fun _ => laws.decoder_refl _⟩, rfl, rfl⟩⟩

/-- The answers of an encoder session depend on the calls it may notice. -/
theorem EncoderAlike.answers_filter (h : EncoderAlike laws d state state')
    (later : List (Call π)) :
    answersTo Call.onEncoder (SessionState.step B configuration) state later =
      answersTo Call.onEncoder (SessionState.step B configuration) state'
        (later.filter seenByEncoder) := by
  refine answersTo_eq_filter ?_ ?_ ?_ h later
  · intro s t call hcall h
    obtain ⟨hanswer, hnext⟩ := h.step hcall
    exact ⟨fun _ => hanswer, hnext⟩
  · intro s t call hcall h
    exact h.other hcall
  · intro call hcall
    cases call with
    | sendFrame | receiveAccessUnit | flushEncoder | resetEncoder => rfl
    | sendAccessUnit | receiveFrame | flushDecoder | resetDecoder => cases hcall

theorem DecoderAlike.answers_filter (h : DecoderAlike laws d state state')
    (later : List (Call π)) :
    answersTo Call.onDecoder (SessionState.step B configuration) state later =
      answersTo Call.onDecoder (SessionState.step B configuration) state'
        (later.filter seenByDecoder) := by
  refine answersTo_eq_filter ?_ ?_ ?_ h later
  · intro s t call hcall h
    obtain ⟨hanswer, hnext⟩ := h.step hcall
    exact ⟨fun _ => hanswer, hnext⟩
  · intro s t call hcall h
    exact h.other hcall
  · intro call hcall
    cases call with
    | sendAccessUnit | receiveFrame | flushDecoder | resetDecoder => rfl
    | sendFrame | receiveAccessUnit | flushEncoder | resetEncoder => cases hcall

/-- Alike encoder sessions give the same answers, whatever both sessions are asked later. -/
theorem EncoderAlike.answers (h : EncoderAlike laws d state state') (later : List (Call π)) :
    answersTo Call.onEncoder (SessionState.step B configuration) state later =
      answersTo Call.onEncoder (SessionState.step B configuration) state' later := by
  rw [h.answers_filter later, (alike_refl laws state').1.answers_filter later]

theorem DecoderAlike.answers (h : DecoderAlike laws d state state') (later : List (Call π)) :
    answersTo Call.onDecoder (SessionState.step B configuration) state later =
      answersTo Call.onDecoder (SessionState.step B configuration) state' later := by
  rw [h.answers_filter later, (alike_refl laws state').2.answers_filter later]

end Alike

section Lifecycle

variable (B configuration)

/-- Every later result of the session that the call does not belong to is what it would be without
the call. -/
def LeavesOther (state : SessionState σ) (call : Call π) : Prop :=
  (call.onEncoder = true → ∀ later, answersTo Call.onDecoder (step B configuration)
      (step B configuration state call).2 later =
    answersTo Call.onDecoder (step B configuration) state later) ∧
  (call.onDecoder = true → ∀ later, answersTo Call.onEncoder (step B configuration)
      (step B configuration state call).2 later =
    answersTo Call.onEncoder (step B configuration) state later)

/-- The backend refuses to flush. -/
def Refused (state : SessionState σ) (p : π) : Prop :=
  ∃ e, ((B.flush p).run state.runtime.backend).1 = .error e

/-- A flush or a reset finds the slot of the other session empty and its flag set as the call
would set it; a flush may also be refused. -/
def SlotSafe (state : SessionState σ) : Call π → Prop
  | .flushEncoder p =>
      Refused B state p ∨ (state.pendingFrame = none ∧ state.decoderFlushed = true)
  | .resetEncoder => state.pendingFrame = none ∧ state.decoderFlushed = false
  | .flushDecoder p =>
      Refused B state p ∨ (state.pendingPacket = none ∧ state.encoderFlushed = true)
  | .resetDecoder => state.pendingPacket = none ∧ state.encoderFlushed = false
  | .sendFrame _ _ | .receiveAccessUnit | .sendAccessUnit _ _ | .receiveFrame => True

/-- A flush or a reset finds the other session without a reference; a flush may also be refused. -/
def SequenceSafe (state : SessionState σ) : Call π → Prop
  | .flushEncoder p => Refused B state p ∨ state.runtime.decoderState.hasReference = false
  | .resetEncoder => state.runtime.decoderState.hasReference = false
  | .flushDecoder p => Refused B state p ∨ state.runtime.encoderState.hasReference = false
  | .resetDecoder => state.runtime.encoderState.hasReference = false
  | .sendFrame _ _ | .receiveAccessUnit | .sendAccessUnit _ _ | .receiveFrame => True

end Lifecycle

/-- Without a reference, a reset of the sequence state only counts its generation. -/
def Countable (sequence : SequenceState) : Prop :=
  sequence.hasReference = false → sequence.reset = sequence.shifted 1

theorem countable_reset (sequence : SequenceState) : Countable sequence.reset := by
  intro _
  rfl

theorem countable_committed (sequence : SequenceState) (frame : Frame) (latentState : Bytes) :
    Countable (sequence.committed frame latentState) := by
  intro hnever
  cases hnever

/-- Both sequence states of every reachable pair of sessions are countable. -/
theorem countable_step (state : SessionState σ) (call : Call π)
    (h : Countable state.runtime.encoderState ∧ Countable state.runtime.decoderState) :
    Countable (step B configuration state call).2.runtime.encoderState ∧
      Countable (step B configuration state call).2.runtime.decoderState := by
  have hreset : ∀ backend : σ,
      Countable (Runtime.reset B { state.runtime with backend := backend }).encoderState ∧
        Countable (Runtime.reset B { state.runtime with backend := backend }).decoderState :=
    fun _ => ⟨countable_reset _, countable_reset _⟩
  cases call with
  | sendFrame p frame =>
      obtain ⟨hencoder, hdecoder⟩ := SessionCore.encode_states B.toCodecBackend configuration p
        Countable (fun _ _ _ _ => countable_committed _ _ _) frame state.runtime h.1
      simp only [step, sendFrame_run]
      rcases hrun : (SessionCore.encode B.toCodecBackend configuration p frame).run state.runtime
        with ⟨e | packet, runtime⟩
      · rw [hrun] at hencoder hdecoder
        exact ⟨hencoder, hdecoder ▸ h.2⟩
      · rw [hrun] at hencoder hdecoder
        exact ⟨hencoder, hdecoder ▸ h.2⟩
  | sendAccessUnit p packet =>
      obtain ⟨hdecoder, hencoder⟩ := SessionCore.decode_states B.toCodecBackend configuration p
        Countable (fun _ _ => countable_reset _) (fun _ _ _ _ => countable_committed _ _ _) packet
        state.runtime h.2
      simp only [step, sendAccessUnit_run]
      rcases hrun : (SessionCore.decode B.toCodecBackend configuration p packet).run state.runtime
        with ⟨e | frame, runtime⟩
      · rw [hrun] at hencoder hdecoder
        exact ⟨hencoder ▸ h.1, hdecoder⟩
      · rw [hrun] at hencoder hdecoder
        exact ⟨hencoder ▸ h.1, hdecoder⟩
  | flushEncoder p | flushDecoder p =>
      simp only [step, flush_run]
      rcases (B.flush p).run state.runtime.backend with ⟨e | u, backend⟩
      · exact h
      · exact hreset backend
  | receiveAccessUnit =>
      simp only [step, receiveAccessUnit, Action.run]
      cases state.pendingPacket with
      | some packet => exact h
      | none => cases state.encoderFlushed <;> exact h
  | receiveFrame =>
      simp only [step, receiveFrame, Action.run]
      cases state.pendingFrame with
      | some frame => exact h
      | none => cases state.decoderFlushed <;> exact h
  | resetEncoder | resetDecoder => exact ⟨countable_reset _, countable_reset _⟩

section Lifecycle

variable {state : SessionState σ}

theorem shifted_back (sequence : SequenceState) : sequence = (sequence.shifted 1).shifted (-1) := by
  have hgeneration : sequence.generation + 1 + -1 = sequence.generation := by
    rw [UInt64.add_assoc, show (1 : UInt64) + -1 = 0 by decide, UInt64.add_zero]
  simp only [SequenceState.shifted, hgeneration]

/-- An idle encoder session does not notice that everything is reset. -/
theorem encoderAlike_of_idle (laws : B.Laws) (hcount : Countable state.runtime.encoderState)
    (hreference : state.runtime.encoderState.hasReference = false)
    (hpending : state.pendingPacket = none) {next : SessionState σ}
    (hruntime : next.runtime = Runtime.reset B state.runtime) (hslot : next.pendingPacket = none)
    (hflushed : next.encoderFlushed = state.encoderFlushed) :
    EncoderAlike laws (-1) next state := by
  refine ⟨⟨?_, ?_, ?_⟩, hslot.trans hpending.symm, hflushed⟩
  · rw [hruntime, Runtime.reset, hcount hreference]
    exact shifted_back _
  · rw [hruntime]
    exact laws.reset_kin (laws.kin_refl _)
  · rw [hruntime]
    intro hnever
    cases hnever

/-- An idle decoder session does not notice that everything is reset. -/
theorem decoderAlike_of_idle (laws : B.Laws) (hcount : Countable state.runtime.decoderState)
    (hreference : state.runtime.decoderState.hasReference = false)
    (hpending : state.pendingFrame = none) {next : SessionState σ}
    (hruntime : next.runtime = Runtime.reset B state.runtime) (hslot : next.pendingFrame = none)
    (hflushed : next.decoderFlushed = state.decoderFlushed) :
    DecoderAlike laws (-1) next state := by
  refine ⟨⟨?_, ?_, ?_⟩, hslot.trans hpending.symm, hflushed⟩
  · rw [hruntime, Runtime.reset, hcount hreference]
    exact shifted_back _
  · rw [hruntime]
    exact laws.reset_kin (laws.kin_refl _)
  · rw [hruntime]
    intro hnever
    cases hnever

/-- A lifecycle call that finds the other session idle is not noticed by it. -/
theorem leavesOther_of_safe (laws : B.Laws) (hcount : Countable state.runtime.encoderState ∧
    Countable state.runtime.decoderState) {call : Call π} (hslot : SlotSafe B state call)
    (hsequence : SequenceSafe B state call) : LeavesOther B configuration state call := by
  have hflush : ∀ p, Refused B state p ↔ ∃ e, laws.flushAnswer p = .error e := by
    intro p
    rw [Refused, laws.flush]
  cases call with
  | sendFrame p frame =>
      refine ⟨fun _ later => ?_, fun hnever => (by cases hnever)⟩
      exact ((alike_refl laws state).2.other rfl).answers later
  | receiveAccessUnit =>
      refine ⟨fun _ later => ?_, fun hnever => (by cases hnever)⟩
      exact ((alike_refl laws state).2.other rfl).answers later
  | sendAccessUnit p packet =>
      refine ⟨fun hnever => (by cases hnever), fun _ later => ?_⟩
      exact ((alike_refl laws state).1.other rfl).answers later
  | receiveFrame =>
      refine ⟨fun hnever => (by cases hnever), fun _ later => ?_⟩
      exact ((alike_refl laws state).1.other rfl).answers later
  | flushEncoder p =>
      refine ⟨fun _ later => ?_, fun hnever => (by cases hnever)⟩
      simp only [SlotSafe, SequenceSafe, hflush] at hslot hsequence
      simp only [step, flush_run_of_laws laws]
      cases hanswer : laws.flushAnswer p with
      | error e => rfl
      | ok u =>
          simp only [hanswer, reduceCtorEq, exists_false, false_or] at hslot hsequence
          exact (decoderAlike_of_idle laws hcount.2 hsequence hslot.1 rfl rfl
            hslot.2.symm).answers later
  | resetEncoder =>
      refine ⟨fun _ later => ?_, fun hnever => (by cases hnever)⟩
      exact (decoderAlike_of_idle laws hcount.2 hsequence hslot.1 rfl rfl
        hslot.2.symm).answers later
  | flushDecoder p =>
      refine ⟨fun hnever => (by cases hnever), fun _ later => ?_⟩
      simp only [SlotSafe, SequenceSafe, hflush] at hslot hsequence
      simp only [step, flush_run_of_laws laws]
      cases hanswer : laws.flushAnswer p with
      | error e => rfl
      | ok u =>
          simp only [hanswer, reduceCtorEq, exists_false, false_or] at hslot hsequence
          exact (encoderAlike_of_idle laws hcount.1 hsequence hslot.1 rfl rfl
            hslot.2.symm).answers later
  | resetDecoder =>
      refine ⟨fun hnever => (by cases hnever), fun _ later => ?_⟩
      exact (encoderAlike_of_idle laws hcount.1 hsequence hslot.1 rfl rfl
        hslot.2.symm).answers later

/-- Sessions whose next receive is answered alike have the same slot and, if it is empty, the same
flag. -/
theorem decoder_slot_of_receive {next : SessionState σ} (hnext : next.pendingFrame = none)
    (h : (step B configuration next (.receiveFrame : Call π)).1 =
      (step B configuration state (.receiveFrame : Call π)).1) :
    state.pendingFrame = none ∧ state.decoderFlushed = next.decoderFlushed := by
  simp only [step, receiveFrame, Action.run, hnext] at h
  cases hpending : state.pendingFrame with
  | some frame =>
      rw [hpending] at h
      cases hflushed : next.decoderFlushed <;> simp [hflushed] at h
  | none =>
      rw [hpending] at h
      refine ⟨rfl, ?_⟩
      cases hflushed : next.decoderFlushed <;> cases hbefore : state.decoderFlushed <;>
        simp [hflushed, hbefore, codecError] at h ⊢

theorem encoder_slot_of_receive {next : SessionState σ} (hnext : next.pendingPacket = none)
    (h : (step B configuration next (.receiveAccessUnit : Call π)).1 =
      (step B configuration state (.receiveAccessUnit : Call π)).1) :
    state.pendingPacket = none ∧ state.encoderFlushed = next.encoderFlushed := by
  simp only [step, receiveAccessUnit, Action.run, hnext] at h
  cases hpending : state.pendingPacket with
  | some frame =>
      rw [hpending] at h
      cases hflushed : next.encoderFlushed <;> simp [hflushed] at h
  | none =>
      rw [hpending] at h
      refine ⟨rfl, ?_⟩
      cases hflushed : next.encoderFlushed <;> cases hbefore : state.encoderFlushed <;>
        simp [hflushed, hbefore, codecError] at h ⊢

/-- A call that the other session does not notice found its slot empty. -/
theorem slotSafe_of_leavesOther {call : Call π} (h : LeavesOther B configuration state call) :
    SlotSafe B state call := by
  cases call with
  | sendFrame | receiveAccessUnit | sendAccessUnit | receiveFrame => trivial
  | resetEncoder =>
      have hreceive := List.cons.inj (h.1 rfl [.receiveFrame])
      exact decoder_slot_of_receive rfl hreceive.1
  | resetDecoder =>
      have hreceive := List.cons.inj (h.2 rfl [.receiveAccessUnit])
      exact encoder_slot_of_receive rfl hreceive.1
  | flushEncoder p =>
      have hreceive := (List.cons.inj (h.1 rfl [.receiveFrame])).1
      rcases hflush : (B.flush p).run state.runtime.backend with ⟨e | u, backend⟩
      · exact .inl ⟨e, congrArg Prod.fst hflush⟩
      · have hnext : (step B configuration state (.flushEncoder p)).2.pendingFrame = none ∧
            (step B configuration state (.flushEncoder p)).2.decoderFlushed = true := by
          simp only [step, flush_run, hflush]
          exact ⟨rfl, rfl⟩
        have hslot := decoder_slot_of_receive hnext.1 hreceive
        exact .inr ⟨hslot.1, hslot.2.trans hnext.2⟩
  | flushDecoder p =>
      have hreceive := (List.cons.inj (h.2 rfl [.receiveAccessUnit])).1
      rcases hflush : (B.flush p).run state.runtime.backend with ⟨e | u, backend⟩
      · exact .inl ⟨e, congrArg Prod.fst hflush⟩
      · have hnext : (step B configuration state (.flushDecoder p)).2.pendingPacket = none ∧
            (step B configuration state (.flushDecoder p)).2.encoderFlushed = true := by
          simp only [step, flush_run, hflush]
          exact ⟨rfl, rfl⟩
        have hslot := encoder_slot_of_receive hnext.1 hreceive
        exact .inr ⟨hslot.1, hslot.2.trans hnext.2⟩

end Lifecycle

/-- In every reachable state of the pair, a flush or reset of one session leaves every later result
of the other one unchanged if that session is idle: its slot is empty, its flag is already as the
call sets it, and it holds no reference. Slot and flag must be so. -/
theorem legacy_lifecycle_unnoticed (laws : B.Laws) (configuration : SessionConfiguration)
    (backend : σ) (history : List (Call π)) (call : Call π) :
    let state := final (step B configuration) (initial configuration backend) history
    (SlotSafe B state call ∧ SequenceSafe B state call → LeavesOther B configuration state call) ∧
      (LeavesOther B configuration state call → SlotSafe B state call) := by
  have hinitial : Countable (initial configuration backend).runtime.encoderState ∧
      Countable (initial configuration backend).runtime.decoderState :=
    ⟨fun _ => rfl, fun _ => rfl⟩
  have hcount : Countable (final (step B configuration) (initial configuration backend)
        history).runtime.encoderState ∧
      Countable (final (step B configuration) (initial configuration backend)
        history).runtime.decoderState :=
    invariant_of_step countable_step hinitial history
  exact ⟨fun h => leavesOther_of_safe laws hcount h.1 h.2, slotSafe_of_leavesOther⟩

/-- The pixel backend keeps nothing, so its directions are separate. -/
def pixelLaws : pixelBackend.Laws where
  Kin _ _ := True
  EncoderSame _ _ _ := True
  DecoderSame _ _ _ := True
  encode :=
    { kin := fun h => h
      intra := fun _ _ _ _ => .pure (fun _ _ h => h) _
      same := fun _ _ _ _ _ => .pure (fun _ _ h => h) _ }
  decode :=
    { kin := fun h => h
      intra := fun _ _ _ _ => .pure (fun _ _ h => h) _
      same := fun _ _ _ _ _ => .pure (fun _ _ h => h) _ }
  flushAnswer _ := .ok ()
  flush _ _ := rfl
  kin_refl _ := trivial
  kin_symm h := h
  encoder_refl _ := trivial
  decoder_refl _ := trivial
  encode_kin _ _ _ _ _ _ h := h
  encode_decoder _ _ _ _ _ _ _ h := h
  decode_kin _ _ _ _ _ _ _ h := h
  decode_encoder _ _ _ _ _ _ _ _ h := h
  resetEncoder_kin h := h
  resetEncoder_decoder h := h
  resetDecoder_kin h := h
  resetDecoder_encoder h := h
  reset_kin h := h

/-- The encoder is reset before the decoder has done anything. -/
theorem early_reset_unnoticed :
    LeavesOther pixelBackend pixelConfiguration (final (step pixelBackend pixelConfiguration)
      (initial pixelConfiguration ()) [.sendFrame () (pixelFrame 0)]) .resetEncoder :=
  (legacy_lifecycle_unnoticed pixelLaws pixelConfiguration () [.sendFrame () (pixelFrame 0)]
    .resetEncoder).1 ⟨⟨by decide, by decide⟩, rfl⟩

/-- A reset of the encoder discards the decoded frame that the decoder session holds. -/
theorem encoder_reset_discards_frame :
    ¬ ∀ (π σ : Type) (B : Backend π σ) (_ : B.Laws) (configuration : SessionConfiguration)
        (backend : σ) (history : List (Call π)) (call : Call π),
      LeavesOther B configuration
        (final (step B configuration) (initial configuration backend) history) call := by
  intro h
  have hleaves := h Unit Unit pixelBackend pixelLaws pixelConfiguration ()
    [.sendAccessUnit () ⟨[5], 0, .intra⟩] .resetEncoder
  exact absurd (slotSafe_of_leavesOther hleaves).1 (by decide)

end SessionState

end Nvcr.Legacy
