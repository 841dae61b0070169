import Nvcr.LegacyOutputs
import Nvcr.SessionQueues

/-!
# Concurrent clients of a runtime

The runtime locks every call of its own, and `encode` and `decode` are two such calls: a send and
a receive. The steps of several clients may therefore alternate in any way.
-/

namespace Nvcr.Runtime

open StatefulResults TransitionRuns

inductive RuntimeState where
  | initializing
  | ready
  | failed
  | stopped
  deriving DecidableEq, Repr

/-- A session of one direction that has one output for every input it accepts and hands them out
in order. -/
structure Session (ι ο : Type) where
  State : Type
  initial : State
  send : ι → Action Error State Unit
  receive : Action Error State ο
  queue : State → List ο
  queue_initial : queue initial = []
  send_ok : ∀ input s s', (send input).run s = (.ok (), s') →
    ∃ output, queue s' = queue s ++ [output]
  send_error : ∀ input s e s', (send input).run s = (.error e, s') → queue s' = queue s
  receive_cons : ∀ s output rest, queue s = output :: rest →
    ∃ s', receive.run s = (.ok output, s') ∧ queue s' = rest

/-- One direction of a runtime. -/
structure Direction {ι ο : Type} (S : Session ι ο) where
  session : S.State
  state : RuntimeState

section Calls

variable {ι ο α : Type} {S : Session ι ο}

def runtimeError (code : ErrorCode) (message : String) : Error := ⟨code, message, "runtime"⟩

def onSession (x : Action Error S.State α) : Action Error (Direction S) α :=
  x.zoom Direction.session fun direction session => { direction with session := session }

/-- The send step of a call; `check` is what the runtime asks of the input itself. -/
def send (check : ι → Result Unit) (input : ι) : Action Error (Direction S) Unit := do
  let state ← Action.gets Direction.state
  Action.lift (require (state = .ready) (runtimeError .invalidState "runtime is not ready"))
  Action.lift (check input)
  onSession (S.send input)

/-- The receive step of a call. -/
def receive : Action Error (Direction S) ο := onSession S.receive

end Calls

/-- The runtime does not pass on empty frames. An input is a frame with what happens while it is
encoded. -/
def checkFrame {π : Type} (input : π × Frame) : Result Unit :=
  require (input.2.data.length ≠ 0)
    (runtimeError .invalidArgument "cannot encode an empty frame")

/-- Packets are not checked. -/
def checkPacket {π : Type} (_ : π × Packet) : Result Unit := .ok ()

/-- A step of a client: the send step of a call with its input, or the receive step of the call
it is in. -/
inductive Turn (κ ι : Type) where
  | start (client : κ) (input : ι)
  | finish (client : κ)

/-- A runtime with its clients: those between the two steps of a call, in the order of their
sends, and the outputs in the session with the client whose send produced each. -/
structure Clients (κ : Type) {ι ο : Type} (S : Session ι ο) where
  direction : Direction S
  sent : List κ
  tagged : List (κ × ο)

namespace Clients

variable {κ ι ο : Type} {S : Session ι ο}

def new (κ : Type) {ι ο : Type} (S : Session ι ο) : Clients κ S := ⟨⟨S.initial, .ready⟩, [], []⟩

/-- A client receives only when no call before its own is waiting. -/
def InOrder (clients : Clients κ S) : Turn κ ι → Prop
  | .start _ _ => True
  | .finish client => client ∈ clients.sent → clients.sent.head? = some client

/-- The outputs in the session are those of the waiting calls, in their order. -/
structure Aligned (clients : Clients κ S) : Prop where
  clients_eq : clients.tagged.map Prod.fst = clients.sent
  outputs_eq : clients.tagged.map Prod.snd = S.queue clients.direction.session

theorem aligned_new : (new κ S).Aligned := ⟨rfl, S.queue_initial.symm⟩

/-- What a send step does to the outputs in the session. -/
theorem send_queue (check : ι → Result Unit) (input : ι) (direction : Direction S) :
    (∃ e later, (send check input).run direction = (.error e, later) ∧
        S.queue later.session = S.queue direction.session) ∨
      ∃ output later, (send check input).run direction = (.ok (), later) ∧
        S.queue later.session = S.queue direction.session ++ [output] := by
  simp only [send, onSession, Action.run_bind, Action.run_gets, Action.run_lift, Action.run_zoom]
  cases hready : require (direction.state = .ready)
      (runtimeError .invalidState "runtime is not ready") with
  | error e => exact .inl ⟨e, direction, rfl, rfl⟩
  | ok u =>
      cases hcheck : check input with
      | error e => exact .inl ⟨e, direction, rfl, rfl⟩
      | ok u =>
          rcases hrun : (S.send input).run direction.session with ⟨e | u, session⟩
          · refine .inl ⟨e, { direction with session := session }, ?_,
              S.send_error input _ e session hrun⟩
            simp only [hrun]
          · obtain ⟨output, hqueue⟩ := S.send_ok input _ session hrun
            refine .inr ⟨output, { direction with session := session }, ?_, hqueue⟩
            simp only [hrun]

/-- A finishing client gets the first output, which is that of the first waiting call. -/
theorem Aligned.finish {clients : Clients κ S} (h : clients.Aligned) {client : κ}
    (hsent : client ∈ clients.sent) :
    ∃ owner output rest direction, clients.tagged = (owner, output) :: rest ∧
      receive.run clients.direction = (.ok output, direction) ∧
      S.queue direction.session = rest.map Prod.snd := by
  cases htagged : clients.tagged with
  | nil =>
      have hnone : clients.sent = [] := by rw [← h.clients_eq, htagged, List.map_nil]
      rw [hnone] at hsent
      cases hsent
  | cons first rest =>
      have hqueue : S.queue clients.direction.session = first.2 :: rest.map Prod.snd := by
        rw [← h.outputs_eq, htagged, List.map_cons]
      obtain ⟨session, hreceive, hlater⟩ := S.receive_cons _ _ _ hqueue
      refine ⟨first.1, first.2, rest, { clients.direction with session := session }, rfl, ?_, hlater⟩
      simp only [receive, onSession, Action.run_zoom, hreceive]

variable [DecidableEq κ]

/-- Take a step; a call that returns answers with its result. -/
def step (check : ι → Result Unit) (clients : Clients κ S) :
    Turn κ ι → Option (Result ο) × Clients κ S
  | .start client input =>
      if client ∈ clients.sent then (none, clients)
      else
        match (send check input).run clients.direction with
        | (.error e, direction) => (some (.error e), { clients with direction := direction })
        | (.ok (), direction) =>
            let outputs := (S.queue direction.session).drop (S.queue clients.direction.session).length
            (none, ⟨direction, clients.sent ++ [client],
              clients.tagged ++ outputs.map (Prod.mk client)⟩)
  | .finish client =>
      if client ∈ clients.sent then
        let received := receive.run clients.direction
        (some received.1, ⟨received.2, clients.sent.erase client, clients.tagged.tail⟩)
      else (none, clients)

/-- A call returns the output of its own send. -/
def ReceivesOwn (check : ι → Result Unit) (clients : Clients κ S) : Turn κ ι → Prop
  | .start _ _ => True
  | .finish client => client ∈ clients.sent →
      ∃ output, (step check clients (.finish client)).1 = some (.ok output) ∧
        clients.tagged.head? = some (client, output)

theorem receivesOwn_iff_inOrder (check : ι → Result Unit) {clients : Clients κ S}
    (h : clients.Aligned) (turn : Turn κ ι) :
    clients.ReceivesOwn check turn ↔ clients.InOrder turn := by
  cases turn with
  | start client input => exact Iff.rfl
  | finish client =>
      refine imp_congr_right fun hsent => ?_
      obtain ⟨owner, output, rest, direction, htagged, hreceive, -⟩ := h.finish hsent
      have hfirst : clients.sent.head? = some owner := by
        rw [← h.clients_eq, htagged, List.map_cons, List.head?_cons]
      have hanswer : (step check clients (.finish client)).1 = some (.ok output) := by
        simp only [step, if_pos hsent, hreceive]
      rw [hfirst, hanswer, htagged, List.head?_cons]
      constructor
      · rintro ⟨received, -, howner⟩
        cases howner
        rfl
      · intro howner
        cases howner
        exact ⟨output, rfl, rfl⟩

/-- Steps in order keep the outputs aligned with the waiting calls. -/
theorem aligned_step (check : ι → Result Unit) (clients : Clients κ S) (turn : Turn κ ι)
    (h : clients.Aligned) (horder : clients.InOrder turn) :
    (step check clients turn).2.Aligned := by
  cases turn with
  | start client input =>
      by_cases hsent : client ∈ clients.sent
      · simpa only [step, if_pos hsent] using h
      · rcases send_queue check input clients.direction with
          ⟨e, later, hrun, hqueue⟩ | ⟨output, later, hrun, hqueue⟩
        · simp only [step, if_neg hsent, hrun]
          exact ⟨h.clients_eq, h.outputs_eq.trans hqueue.symm⟩
        · simp only [step, if_neg hsent, hrun, hqueue, List.drop_left]
          refine ⟨?_, ?_⟩
          · simp only [List.map_append, h.clients_eq, List.map_cons, List.map_nil]
          · simp only [List.map_append, h.outputs_eq, List.map_cons, List.map_nil, hqueue]
  | finish client =>
      by_cases hsent : client ∈ clients.sent
      · obtain ⟨owner, output, rest, direction, htagged, hreceive, hqueue⟩ := h.finish hsent
        have hlist : clients.sent = owner :: rest.map Prod.fst := by
          rw [← h.clients_eq, htagged, List.map_cons]
        have howner : owner = client := by
          have hfirst := horder hsent
          rw [hlist, List.head?_cons] at hfirst
          exact Option.some.inj hfirst
        simp only [step, if_pos hsent, hreceive, htagged, List.tail_cons]
        refine ⟨?_, hqueue.symm⟩
        rw [hlist, howner, List.erase_cons_head]
      · simpa only [step, if_neg hsent] using h

theorem own_output_iff (check : ι → Result Unit) (turns : List (Turn κ ι)) :
    Along (ReceivesOwn check) (step check) (new κ S) turns ↔
      Along InOrder (step check) (new κ S) turns := by
  have hinitial : (new κ S).Aligned := aligned_new
  constructor
  · refine Along.of_invariant ?_ ?_ hinitial
    · intro clients turn h hown
      exact aligned_step check clients turn h ((receivesOwn_iff_inOrder check h turn).mp hown)
    · intro clients turn h hown
      exact (receivesOwn_iff_inOrder check h turn).mp hown
  · refine Along.of_invariant ?_ ?_ hinitial
    · intro clients turn h horder
      exact aligned_step check clients turn h horder
    · intro clients turn h horder
      exact (receivesOwn_iff_inOrder check h turn).mpr horder

end Clients

/-- In every interleaving of the steps of `encode` calls, every call returns the packet of its own
frame exactly when the clients receive in the order in which they sent; the same for `decode`. -/
theorem clients_receive_own_iff {κ π : Type} [DecidableEq κ] (encoder : Session (π × Frame) Packet)
    (decoder : Session (π × Packet) Frame) (encodes : List (Turn κ (π × Frame)))
    (decodes : List (Turn κ (π × Packet))) :
    (Along (Clients.ReceivesOwn checkFrame) (Clients.step checkFrame) (Clients.new κ encoder)
        encodes ↔
      Along Clients.InOrder (Clients.step checkFrame) (Clients.new κ encoder) encodes) ∧
    (Along (Clients.ReceivesOwn checkPacket) (Clients.step checkPacket) (Clients.new κ decoder)
        decodes ↔
      Along Clients.InOrder (Clients.step checkPacket) (Clients.new κ decoder) decodes) :=
  ⟨Clients.own_output_iff checkFrame encodes, Clients.own_output_iff checkPacket decodes⟩

section DcvcRt

open Rt

variable {π σ : Type} {B : Codec.CodecBackend π σ} {configuration : SessionConfiguration}

theorem sendFrame_outputs {p : π} {frame : Frame} {sessions later : Sessions σ}
    {result : Result Unit}
    (h : (Sessions.sendFrame B configuration p frame).run sessions = (result, later)) :
    (∃ e, result = .error e ∧ later.encoderOutputs = sessions.encoderOutputs) ∨
      ∃ packet, result = .ok () ∧ later.encoderOutputs = sessions.encoderOutputs ++ [packet] := by
  rw [Sessions.sendFrame_run] at h
  split at h
  · cases h
    exact .inl ⟨_, rfl, rfl⟩
  · rcases hrun : (SessionCore.encode B configuration p frame).run sessions.core with
      ⟨e | packet, core⟩
    · rw [hrun] at h
      cases h
      exact .inl ⟨e, rfl, rfl⟩
    · rw [hrun] at h
      cases h
      exact .inr ⟨packet, rfl, rfl⟩

theorem sendAccessUnit_outputs {p : π} {packet : Packet} {sessions later : Sessions σ}
    {result : Result Unit}
    (h : (Sessions.sendAccessUnit B configuration p packet).run sessions = (result, later)) :
    (∃ e, result = .error e ∧ later.decoderOutputs = sessions.decoderOutputs) ∨
      ∃ frame, result = .ok () ∧ later.decoderOutputs = sessions.decoderOutputs ++ [frame] := by
  rw [Sessions.sendAccessUnit_run] at h
  split at h
  · cases h
    exact .inl ⟨_, rfl, rfl⟩
  · rcases hrun : (SessionCore.decode B configuration p packet).run sessions.core with
      ⟨e | frame, core⟩
    · rw [hrun] at h
      cases h
      exact .inl ⟨e, rfl, rfl⟩
    · rw [hrun] at h
      cases h
      exact .inr ⟨frame, rfl, rfl⟩

variable (B configuration)

/-- The DCVC-RT encoder session behind a runtime. -/
def rtEncoder (backend : σ) : Session (π × Frame) Packet where
  State := Sessions σ
  initial := Sessions.initial configuration backend
  send input := Sessions.sendFrame B configuration input.1 input.2
  receive := Sessions.receiveAccessUnit
  queue := Sessions.encoderOutputs
  queue_initial := rfl
  send_ok := by
    intro input sessions later hrun
    rcases sendFrame_outputs hrun with ⟨e, herror, -⟩ | ⟨packet, -, houtputs⟩
    · cases herror
    · exact ⟨packet, houtputs⟩
  send_error := by
    intro input sessions e later hrun
    rcases sendFrame_outputs hrun with ⟨_, -, houtputs⟩ | ⟨packet, hok, -⟩
    · exact houtputs
    · cases hok
  receive_cons := by
    intro sessions output rest hqueue
    refine ⟨{ sessions with encoderOutputs := rest }, ?_, rfl⟩
    simp only [Sessions.receiveAccessUnit, Action.run, hqueue]

/-- The DCVC-RT decoder session behind a runtime. -/
def rtDecoder (backend : σ) : Session (π × Packet) Frame where
  State := Sessions σ
  initial := Sessions.initial configuration backend
  send input := Sessions.sendAccessUnit B configuration input.1 input.2
  receive := Sessions.receiveFrame
  queue := Sessions.decoderOutputs
  queue_initial := rfl
  send_ok := by
    intro input sessions later hrun
    rcases sendAccessUnit_outputs hrun with ⟨e, herror, -⟩ | ⟨frame, -, houtputs⟩
    · cases herror
    · exact ⟨frame, houtputs⟩
  send_error := by
    intro input sessions e later hrun
    rcases sendAccessUnit_outputs hrun with ⟨_, -, houtputs⟩ | ⟨frame, hok, -⟩
    · exact houtputs
    · cases hok
  receive_cons := by
    intro sessions output rest hqueue
    refine ⟨{ sessions with decoderOutputs := rest }, ?_, rfl⟩
    simp only [Sessions.receiveFrame, Action.run, hqueue]

end DcvcRt

open Legacy.SessionState in
/-- Two clients send one after the other, and the second one is the first to receive: it gets the
packet of the other client's frame. -/
theorem overtaking_client_receives_other_packet :
    ¬ ∀ (κ π : Type) [DecidableEq κ] (encoder : Session (π × Frame) Packet)
        (turns : List (Turn κ (π × Frame))),
      Along (Clients.ReceivesOwn checkFrame) (Clients.step checkFrame) (Clients.new κ encoder)
        turns := by
  intro h
  obtain ⟨-, -, hown, -⟩ := h ℕ Unit (rtEncoder pixelBackend.toCodecBackend pixelConfiguration ())
    [.start 1 ((), pixelFrame 0), .start 2 ((), pixelFrame 1), .finish 2]
  obtain ⟨output, -, howner⟩ := hown (by decide)
  cases howner

end Nvcr.Runtime
