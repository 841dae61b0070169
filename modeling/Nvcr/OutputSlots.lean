import Nvcr.OutputQueues

/-!
# Machines with a single output slot

A slot holds one output at most, so it serves as a queue only while nothing is put into it, or
discarded from it, before it was emptied by a request.
-/

namespace Nvcr.OutputSlots

open TransitionRuns OutputQueues

variable {σ ι ο α ε : Type*}

/-- What a step does to the slot. -/
inductive Effect (α : Type*) where
  | filled (output : α)
  | taken
  | discarded
  | restarted
  | kept

namespace Effect

def apply (slot : Option α) : Effect α → Option α
  | .filled output => some output
  | .taken | .discarded | .restarted => none
  | .kept => slot

/-- What the effect means for the ledger. -/
def event (slot : Option α) : Effect α → Event α
  | .filled output => .produced output
  | .taken => match slot with
      | some output => .received output
      | none => .other
  | .restarted => .reset
  | .discarded | .kept => .other

/-- The effect drops what the slot held. -/
def Overwrites : Effect α → Prop
  | .filled _ | .discarded => True
  | .taken | .restarted | .kept => False

end Effect

/-- The slot holds what was produced and not handed out. -/
def Settled (slot : Option α) (ledger : Ledger α) : Prop :=
  ledger.received ++ slot.toList = ledger.produced

theorem settled_iff_of_received_eq {slot : Option α} {ledger : Ledger α}
    (h : Settled slot ledger) : ledger.received = ledger.produced ↔ slot = none := by
  rw [← show ledger.received ++ slot.toList = ledger.produced from h]
  constructor
  · intro hself
    have hempty : slot.toList = [] := List.append_right_eq_self.mp hself.symm
    cases slot with
    | none => rfl
    | some output => cases hempty
  · rintro rfl
    exact (List.append_nil _).symm

/-- A settled slot stays settled exactly when nothing in it is overwritten. -/
theorem settled_record_iff {slot : Option α} {ledger : Ledger α} (h : Settled slot ledger)
    (effect : Effect α) :
    Settled (effect.apply slot) (ledger.record (effect.event slot)) ↔
      (effect.Overwrites → slot = none) := by
  have hslot : ledger.received ++ slot.toList = ledger.produced := h
  cases effect with
  | filled output =>
      have hiff : Settled (some output) (ledger.record (.produced output)) ↔
          ledger.received = ledger.produced := List.append_left_inj [output]
      exact hiff.trans ((settled_iff_of_received_eq h).trans
        ⟨fun hnone _ => hnone, fun hnone => hnone trivial⟩)
  | taken =>
      refine ⟨fun _ hnever => hnever.elim, fun _ => ?_⟩
      cases slot with
      | none => exact hslot
      | some output =>
          change (ledger.received ++ [output]) ++ [] = ledger.produced
          rw [List.append_nil]
          exact hslot
  | discarded =>
      have hiff : Settled none ledger ↔ ledger.received = ledger.produced := by
        rw [Settled, Option.toList_none, List.append_nil]
      exact hiff.trans ((settled_iff_of_received_eq h).trans
        ⟨fun hnone _ => hnone, fun hnone => hnone trivial⟩)
  | restarted => exact ⟨fun _ hnever => hnever.elim, fun _ => rfl⟩
  | kept => exact ⟨fun _ hnever => hnever.elim, fun _ => hslot⟩

/-- Repeated requests hand out a list of outputs and are then answered by an error of a kind. -/
def Drains (receive : σ → Except ε α × σ) (empty : ε → Prop) : σ → List α → Prop
  | s, [] => ∃ e, (receive s).1 = .error e ∧ empty e
  | s, output :: outputs => (receive s).1 = .ok output ∧ Drains receive empty (receive s).2 outputs

/-- Requests are served from the slot. -/
structure Serves (receive : σ → Except ε α × σ) (empty : ε → Prop) (slot : σ → Option α) :
    Prop where
  some : ∀ s output, slot s = some output →
    (receive s).1 = .ok output ∧ slot (receive s).2 = none
  none : ∀ s, slot s = none → ∃ e, (receive s).1 = .error e ∧ empty e

theorem Serves.drains_iff {receive : σ → Except ε α × σ} {empty : ε → Prop} {slot : σ → Option α}
    (h : Serves receive empty slot) (s : σ) (outputs : List α) :
    Drains receive empty s outputs ↔ outputs = (slot s).toList := by
  cases hslot : slot s with
  | none =>
      obtain ⟨e, herror, hempty⟩ := h.none s hslot
      cases outputs with
      | nil => exact ⟨fun _ => rfl, fun _ => ⟨e, herror, hempty⟩⟩
      | cons output outputs =>
          refine ⟨fun hdrains => ?_, fun hcons => by cases hcons⟩
          rw [hdrains.1] at herror
          cases herror
  | some held =>
      obtain ⟨hok, hnext⟩ := h.some s held hslot
      obtain ⟨e, herror, hempty⟩ := h.none _ hnext
      cases outputs with
      | nil =>
          refine ⟨fun ⟨e, he, _⟩ => ?_, fun hnil => by cases hnil⟩
          rw [hok] at he
          cases he
      | cons output outputs =>
          constructor
          · rintro ⟨hfirst, hrest⟩
            have hsame : held = output := Except.ok.inj (hok.symm.trans hfirst)
            cases outputs with
            | nil => rw [hsame]; rfl
            | cons second outputs =>
                have hsecond := hrest.1
                rw [herror] at hsecond
                cases hsecond
          · rintro ⟨⟩
            exact ⟨hok, e, herror, hempty⟩

/-- The outputs handed out are the first of those produced since the last restart, and requests
hand out the others. -/
def Contract (receive : σ → Except ε α × σ) (empty : ε → Prop) (s : σ) (ledger : Ledger α) : Prop :=
  ledger.received <+: ledger.produced ∧
    Drains receive empty s (ledger.produced.drop ledger.received.length)

theorem Serves.contract_iff {receive : σ → Except ε α × σ} {empty : ε → Prop}
    {slot : σ → Option α} (h : Serves receive empty slot) (s : σ) (ledger : Ledger α) :
    Contract receive empty s ledger ↔ Settled (slot s) ledger := by
  rw [Contract, h.drains_iff]
  constructor
  · rintro ⟨⟨rest, hrest⟩, howed⟩
    rw [← hrest, List.drop_left] at howed
    rw [Settled, ← howed, hrest]
  · intro hsettled
    have hproduced : ledger.received ++ (slot s).toList = ledger.produced := hsettled
    refine ⟨⟨_, hproduced⟩, ?_⟩
    rw [← hproduced, List.drop_left]

/-- The contract is kept throughout a run exactly when no step of it overwrites an output. -/
theorem contract_along_iff {step : σ → ι → ο × σ} {effect : σ → ι → Effect α}
    {receive : σ → Except ε α × σ} {empty : ε → Prop} {slot : σ → Option α}
    (h : Serves receive empty slot)
    (hstep : ∀ s i, slot (step s i).2 = (effect s i).apply (slot s)) {s : σ} {book : Ledger α}
    (hs : Settled (slot s) book) (is : List ι) :
    (∀ past, past <+: is →
      Contract receive empty
        (final (withLedger step fun s i => (effect s i).event (slot s)) (s, book) past).1
        (final (withLedger step fun s i => (effect s i).event (slot s)) (s, book) past).2) ↔
      Along (fun s i => (effect s i).Overwrites → slot s = none) step s is := by
  induction is generalizing s book with
  | nil =>
      refine ⟨fun _ => trivial, fun _ past hpast => ?_⟩
      rw [List.prefix_nil.mp hpast]
      exact (h.contract_iff s book).mpr hs
  | cons i is ih =>
      have hrecord := settled_record_iff hs (effect s i)
      rw [← hstep] at hrecord
      constructor
      · intro hall
        have hnext : Settled (slot (step s i).2) (book.record ((effect s i).event (slot s))) :=
          (h.contract_iff _ _).mp (hall [i] ⟨is, rfl⟩)
        refine ⟨hrecord.mp hnext, (ih hnext).mp fun past hpast => ?_⟩
        exact hall (i :: past) (List.cons_prefix_cons.mpr ⟨rfl, hpast⟩)
      · rintro ⟨hfirst, hrest⟩ past hpast
        have hnext := hrecord.mpr hfirst
        cases past with
        | nil => exact (h.contract_iff s book).mpr hs
        | cons j past =>
            obtain ⟨rfl, hlater⟩ := List.cons_prefix_cons.mp hpast
            exact (ih hnext).mpr hrest past hlater

end Nvcr.OutputSlots
