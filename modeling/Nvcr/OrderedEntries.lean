import Mathlib.Data.List.Sort
import Mathlib.Order.RelClasses
import Mathlib.Tactic

/-!
# Maps as lists of entries in key order

An entry is inserted behind all smaller keys, and not at all where its key is there. Inserting a
list of entries one after the other succeeds exactly when their keys are distinct, and gives the
one list in key order that has these entries.
-/

namespace Nvcr.OrderedEntries

variable {κ α : Type*} [LT κ]

/-- Entries in the order of their keys, which are distinct. -/
def InOrder (entries : List (κ × α)) : Prop :=
  entries.Pairwise fun first second => first.1 < second.1

variable {entry : κ × α} {entries inserted members : List (κ × α)}

section Orders

variable [IsStrictTotalOrder κ (· < ·)]

theorem InOrder.nodup (h : InOrder entries) : (entries.map Prod.fst).Nodup := by
  rw [List.Nodup, List.pairwise_map]
  refine h.imp fun hlt heq => ?_
  rw [heq] at hlt
  exact irrefl_of (· < ·) _ hlt

/-- Two lists of entries in key order with the same entries are the same. -/
theorem InOrder.eq_of_perm (hentries : InOrder entries) (hmembers : InOrder members)
    (h : entries.Perm members) : entries = members := by
  refine h.eq_of_pairwise (fun first second _ _ hlt hgt => ?_) hentries hmembers
  exact absurd hgt (asymm_of (· < ·) hlt)

end Orders

variable [DecidableEq κ] [DecidableRel ((· < ·) : κ → κ → Prop)]

/-- Insert an entry in key order unless its key is there. -/
def insertEntry (entry : κ × α) : List (κ × α) → Option (List (κ × α))
  | [] => some [entry]
  | first :: rest =>
      if entry.1 < first.1 then some (entry :: first :: rest)
      else if entry.1 = first.1 then none
      else (insertEntry entry rest).map (first :: ·)

theorem perm_of_insertEntry (h : insertEntry entry entries = some inserted) :
    inserted.Perm (entry :: entries) := by
  induction entries generalizing inserted with
  | nil =>
      cases h
      exact List.Perm.refl _
  | cons first rest ih =>
      rw [insertEntry] at h
      split at h
      · cases h
        exact List.Perm.refl _
      · split at h
        · cases h
        · obtain ⟨later, hlater, rfl⟩ := Option.map_eq_some_iff.mp h
          exact ((ih hlater).cons first).trans (List.Perm.swap entry first rest)

section TotalOrder

variable [IsStrictTotalOrder κ (· < ·)]

theorem inOrder_insertEntry (hentries : InOrder entries)
    (h : insertEntry entry entries = some inserted) : InOrder inserted := by
  induction entries generalizing inserted with
  | nil =>
      cases h
      exact List.pairwise_singleton _ _
  | cons first rest ih =>
      obtain ⟨hfirst, hrest⟩ := List.pairwise_cons.mp hentries
      rw [insertEntry] at h
      split at h
      · rename_i hlt
        cases h
        refine List.pairwise_cons.mpr ⟨fun other hother => ?_, hentries⟩
        rcases List.mem_cons.mp hother with rfl | hmem
        · exact hlt
        · exact trans_of (· < ·) hlt (hfirst other hmem)
      · split at h
        · cases h
        · rename_i hnot hne
          obtain ⟨later, hinsert, rfl⟩ := Option.map_eq_some_iff.mp h
          have hlt : first.1 < entry.1 := by
            rcases trichotomous_of (· < ·) first.1 entry.1 with hlt | heq | hgt
            · exact hlt
            · exact absurd heq.symm hne
            · exact absurd hgt hnot
          refine List.pairwise_cons.mpr ⟨fun other hother => ?_, ih hrest hinsert⟩
          rcases List.mem_cons.mp ((perm_of_insertEntry hinsert).mem_iff.mp hother) with rfl | hmem
          · exact hlt
          · exact hfirst other hmem

/-- An entry is inserted exactly when its key is not there. -/
theorem insertEntry_isSome (hentries : InOrder entries) :
    (insertEntry entry entries).isSome = true ↔ entry.1 ∉ entries.map Prod.fst := by
  induction entries with
  | nil => simp [insertEntry]
  | cons first rest ih =>
      obtain ⟨hfirst, hrest⟩ := List.pairwise_cons.mp hentries
      rw [insertEntry, List.map_cons, List.mem_cons, not_or]
      split
      · rename_i hlt
        have hbehind : entry.1 ∉ rest.map Prod.fst := by
          rintro hmem
          obtain ⟨other, hother, heq⟩ := List.mem_map.mp hmem
          have hafter : entry.1 < other.1 := trans_of (· < ·) hlt (hfirst other hother)
          exact irrefl_of (· < ·) entry.1 (heq ▸ hafter)
        have hne : entry.1 ≠ first.1 := fun heq => irrefl_of (· < ·) entry.1 (heq ▸ hlt)
        simp [hne, hbehind]
      · split
        · rename_i heq
          simp [heq]
        · rename_i hne
          simp [hne, ih hrest]

end TotalOrder

/-- Insert entries one after the other. -/
def insertAll (entries members : List (κ × α)) : Option (List (κ × α)) :=
  members.foldlM (fun entries entry => insertEntry entry entries) entries

theorem insertAll_cons (entries : List (κ × α)) (entry : κ × α) (members : List (κ × α)) :
    insertAll entries (entry :: members) =
      (insertEntry entry entries).bind fun next => insertAll next members := rfl

theorem perm_of_insertAll (h : insertAll entries members = some inserted) :
    inserted.Perm (members ++ entries) := by
  induction members generalizing entries with
  | nil =>
      cases h
      exact List.Perm.refl _
  | cons entry members ih =>
      rw [insertAll_cons] at h
      obtain ⟨next, hnext, hlater⟩ := Option.bind_eq_some_iff.mp h
      calc inserted.Perm (members ++ next) := ih hlater
        _ |>.Perm (members ++ entry :: entries) := (perm_of_insertEntry hnext).append_left members
        _ |>.Perm (entry :: members ++ entries) := List.perm_middle

section Lists

variable [IsStrictTotalOrder κ (· < ·)]

theorem inOrder_insertAll (hentries : InOrder entries)
    (h : insertAll entries members = some inserted) : InOrder inserted := by
  induction members generalizing entries with
  | nil =>
      cases h
      exact hentries
  | cons entry members ih =>
      rw [insertAll_cons] at h
      obtain ⟨next, hnext, hlater⟩ := Option.bind_eq_some_iff.mp h
      exact ih (inOrder_insertEntry hentries hnext) hlater

/-- Entries with distinct keys can be inserted one after the other, and no others can. -/
theorem insertAll_isSome (hentries : InOrder entries) :
    (insertAll entries members).isSome = true ↔
      ((members ++ entries).map Prod.fst).Nodup := by
  constructor
  · intro h
    obtain ⟨inserted, hinserted⟩ := Option.isSome_iff_exists.mp h
    have hperm := (perm_of_insertAll hinserted).map Prod.fst
    exact hperm.nodup_iff.mp (inOrder_insertAll hentries hinserted).nodup
  · induction members generalizing entries with
    | nil => exact fun _ => rfl
    | cons entry members ih =>
        intro hnodup
        rw [List.cons_append, List.map_cons, List.nodup_cons] at hnodup
        have hfresh : entry.1 ∉ entries.map Prod.fst := fun hmem =>
          hnodup.1 (by rw [List.map_append]; exact List.mem_append_right _ hmem)
        obtain ⟨next, hnext⟩ := Option.isSome_iff_exists.mp ((insertEntry_isSome hentries).mpr hfresh)
        rw [insertAll_cons, hnext, Option.bind_some]
        refine ih (inOrder_insertEntry hentries hnext) ?_
        have hperm : ((members ++ next).map Prod.fst).Perm
            ((entry :: (members ++ entries)).map Prod.fst) :=
          (((perm_of_insertEntry hnext).append_left members).trans List.perm_middle).map Prod.fst
        exact hperm.nodup_iff.mpr (List.nodup_cons.mpr hnodup)

/-- The one list in key order with the given entries. -/
theorem insertAll_eq_some_iff :
    insertAll [] members = some inserted ↔ InOrder inserted ∧ inserted.Perm members := by
  constructor
  · intro h
    exact ⟨inOrder_insertAll List.Pairwise.nil h, by simpa using perm_of_insertAll h⟩
  · rintro ⟨horder, hperm⟩
    have hnodup : ((members ++ []).map Prod.fst).Nodup := by
      rw [List.append_nil]
      exact (hperm.map Prod.fst).nodup_iff.mp horder.nodup
    obtain ⟨other, hother⟩ := Option.isSome_iff_exists.mp
      ((insertAll_isSome List.Pairwise.nil).mpr hnodup)
    have hsame : other = inserted :=
      (inOrder_insertAll List.Pairwise.nil hother).eq_of_perm horder
        ((by simpa using perm_of_insertAll hother : other.Perm members).trans hperm.symm)
    rw [hother, hsame]

end Lists

end Nvcr.OrderedEntries
