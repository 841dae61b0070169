import Nvcr.DecimalTexts

/-!
# Texts with markers

Where a marker stands in a text that is joined without escaping, and when the parts around it are
determined: if no marker occurs in the part before it.
-/

namespace Nvcr.MarkedTexts

variable {α : Type}

/-- A text is the part before the first separator, the separator and the rest. -/
theorem exists_first_separator {separator : α} {u : List α} (h : separator ∈ u) :
    ∃ v w, u = v ++ separator :: w ∧ separator ∉ v := by
  induction u with
  | nil => exact nomatch h
  | cons c u ih =>
      by_cases hc : c = separator
      · exact ⟨[], u, by rw [hc, List.nil_append], List.not_mem_nil⟩
      · have hmem : separator ∈ u := (List.mem_cons.mp h).resolve_left fun h => hc h.symm
        obtain ⟨v, w, hu, hv⟩ := ih hmem
        refine ⟨c :: v, w, by rw [hu, List.cons_append], ?_⟩
        exact fun hmem => (List.mem_cons.mp hmem).elim (fun h => hc h.symm) hv

section Lines

variable {separator : α}

/-- The line `w` follows the text `u`, and stands nowhere in it. -/
def LineFollows (separator : α) (u w : List α) : Prop :=
  ¬ separator :: w ++ [separator] <:+: u ++ [separator]

theorem append_line_start {u x w w' v v' : List α} (hw : separator ∉ w)
    (hfollows : LineFollows separator (u ++ x) w)
    (h : separator :: w ++ separator :: v = x ++ (separator :: w' ++ separator :: v')) :
    x = [] := by
  cases x with
  | nil => rfl
  | cons c y =>
      rw [List.cons_append, List.cons_append, List.cons.injEq] at h
      obtain ⟨rfl, h⟩ := h
      obtain ⟨y', z, hy, hy'⟩ := exists_first_separator
        (List.mem_append_right y (List.mem_singleton_self separator))
      have hsplit : w ++ separator :: v = y' ++ separator :: (z ++ (w' ++ separator :: v')) := by
        calc w ++ separator :: v = (y ++ [separator]) ++ (w' ++ separator :: v') := by
              rw [h]
              simp
          _ = y' ++ separator :: (z ++ (w' ++ separator :: v')) := by rw [hy]; simp
      have hline : w = y' := ((DecimalTexts.append_separator_inj hw hy' _ _).mp hsplit).1
      refine absurd ⟨u, z, ?_⟩ hfollows
      calc u ++ (separator :: w ++ [separator]) ++ z = u ++ separator :: (y' ++ separator :: z) := by
            rw [hline]
            simp
        _ = u ++ separator :: y ++ [separator] := by rw [← hy]; simp

/-- A line that occurs nowhere before its place determines the three parts. -/
theorem append_line_inj {u u' w w' v v' : List α} (hw : separator ∉ w) (hw' : separator ∉ w')
    (hu : LineFollows separator u w') (hu' : LineFollows separator u' w)
    (h : u ++ (separator :: w ++ separator :: v) = u' ++ (separator :: w' ++ separator :: v')) :
    u = u' ∧ w = w' ∧ v = v' := by
  have hsame : u = u' := by
    rcases List.append_eq_append_iff.mp h with ⟨x, rfl, hx⟩ | ⟨x, rfl, hx⟩
    · rw [append_line_start hw hu' hx, List.append_nil]
    · rw [append_line_start hw' hu hx, List.append_nil]
  subst hsame
  have hrest := List.append_cancel_left h
  rw [List.cons_append, List.cons_append, List.cons.injEq] at hrest
  exact ⟨rfl, (DecimalTexts.append_separator_inj hw hw' _ _).mp hrest.2⟩

end Lines

section Markers

/-- Markers of one length that begin with a letter which none of them has at another place. -/
structure Markers (isMarker : List α → Prop) (letter : α) (size : ℕ) : Prop where
  head : ∀ marker, isMarker marker → ∃ body, marker = letter :: body ∧ letter ∉ body
  length : ∀ marker, isMarker marker → marker.length = size

variable {isMarker : List α → Prop} {letter : α} {size : ℕ}

theorem Markers.append_start (markers : Markers isMarker letter size) {u x m m' v v' : List α}
    (hm : isMarker m) (hm' : isMarker m') (hfree : ¬ m <:+: u ++ x)
    (h : m ++ v = x ++ (m' ++ v')) : x = [] := by
  obtain ⟨body, rfl, hbody⟩ := markers.head m hm
  obtain ⟨body', rfl, -⟩ := markers.head m' hm'
  rcases List.append_eq_append_iff.mp h with ⟨y, rfl, -⟩ | ⟨y, hy, hrest⟩
  · -- the marker would lie inside the part before the other one
    refine absurd ⟨u, y, ?_⟩ hfree
    rw [List.append_assoc]
  · cases x with
    | nil => rfl
    | cons c x =>
        -- the other marker would begin inside this one
        rw [List.cons_append, List.cons.injEq] at hy
        cases y with
        | nil =>
            refine absurd ⟨u, [], ?_⟩ hfree
            rw [hy.1, hy.2]
            simp
        | cons d y =>
            rw [List.cons_append, List.cons_append, List.cons.injEq] at hrest
            refine absurd ?_ hbody
            rw [hy.2, ← hrest.1]
            exact List.mem_append_right x List.mem_cons_self

/-- A marker before which no marker occurs determines the three parts. -/
theorem Markers.append_inj (markers : Markers isMarker letter size) {u u' m m' v v' : List α}
    (hm : isMarker m) (hm' : isMarker m') (hu : ¬ m' <:+: u) (hu' : ¬ m <:+: u')
    (h : u ++ (m ++ v) = u' ++ (m' ++ v')) : u = u' ∧ m = m' ∧ v = v' := by
  have hsame : u = u' := by
    rcases List.append_eq_append_iff.mp h with ⟨x, rfl, hx⟩ | ⟨x, rfl, hx⟩
    · rw [markers.append_start hm hm' hu' hx, List.append_nil]
    · rw [markers.append_start hm' hm hu hx, List.append_nil]
  subst hsame
  have hlength : m.length = m'.length := by rw [markers.length m hm, markers.length m' hm']
  exact ⟨rfl, List.append_inj (List.append_cancel_left h) hlength⟩

end Markers

end Nvcr.MarkedTexts
