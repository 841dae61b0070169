import Mathlib.Data.List.TakeWhile
import Mathlib.Tactic

/-!
# Readers of text and the languages they read

A reader takes a value off the front of a text and uses up some of it. It reads a language when
what it takes are the words of the language, and it takes every word in front of a rest that may
follow one. A loop over items that are separated by a comma and ended by a closing character then
reads the sequences of words.
-/

namespace Nvcr.TextReaders

variable {β ε α σ : Type*}

/-- A reader that succeeds leaves less than it was given. -/
structure Reader (β ε α : Type*) where
  read : List β → Except ε (α × List β)
  consumes : ∀ {input value rest}, read input = .ok (value, rest) → rest.length < input.length

/-- The reader takes exactly the words of the language, the longest one where the rest may
follow. -/
structure Reader.Reads (reader : Reader β ε α) (language : List β → α → Prop)
    (follows : List β → Prop) : Prop where
  sound : ∀ {input value rest}, reader.read input = .ok (value, rest) →
    ∃ word, input = word ++ rest ∧ language word value
  complete : ∀ {word value rest}, language word value → follows rest →
    reader.read (word ++ rest) = .ok (value, rest)

section Spans

variable {p : β → Bool} {first rest : List β}

/-- The rest of a text does not go on with such characters. -/
def StopsAt (p : β → Bool) (rest : List β) : Prop := ∀ next ∈ rest.head?, p next = false

theorem stopsAt_nil : StopsAt p [] := fun _ hnext => absurd hnext (Option.not_mem_none _)

theorem stopsAt_cons {next : β} : StopsAt p (next :: rest) ↔ p next = false := by
  simp [StopsAt]

theorem dropWhile_stopsAt (p : β → Bool) (input : List β) : StopsAt p (input.dropWhile p) := by
  induction input with
  | nil => exact stopsAt_nil
  | cons first input ih =>
      rw [List.dropWhile_cons]
      split
      · exact ih
      · rename_i hfirst
        exact stopsAt_cons.mpr (Bool.eq_false_iff.mpr hfirst)

theorem dropWhile_of_stopsAt (h : StopsAt p rest) : rest.dropWhile p = rest := by
  cases rest with
  | nil => rfl
  | cons next rest => rw [List.dropWhile_cons, stopsAt_cons.mp h, if_neg Bool.false_ne_true]

theorem takeWhile_of_stopsAt (h : StopsAt p rest) : rest.takeWhile p = [] := by
  cases rest with
  | nil => rfl
  | cons next rest => rw [List.takeWhile_cons, stopsAt_cons.mp h, if_neg Bool.false_ne_true]

/-- Skipping takes a span of such characters that is as long as it can be. -/
theorem dropWhile_span (hfirst : ∀ b ∈ first, p b = true) (hrest : StopsAt p rest) :
    (first ++ rest).dropWhile p = rest := by
  rw [List.dropWhile_append_of_pos hfirst, dropWhile_of_stopsAt hrest]

theorem takeWhile_span (hfirst : ∀ b ∈ first, p b = true) (hrest : StopsAt p rest) :
    (first ++ rest).takeWhile p = first := by
  rw [List.takeWhile_append_of_pos hfirst, takeWhile_of_stopsAt hrest, List.append_nil]

theorem mem_takeWhile {input : List β} {b : β} (h : b ∈ input.takeWhile p) : p b = true :=
  List.mem_takeWhile_imp h

theorem length_dropWhile_le (p : β → Bool) (input : List β) :
    (input.dropWhile p).length ≤ input.length := (List.dropWhile_suffix p).length_le

end Spans

section Spaces

variable {space : β → Bool} {core : List β → α → Prop} {gap word : List β} {value : α}

/-- A text of the language behind optional space. -/
def Spaced (space : β → Bool) (core : List β → α → Prop) (word : List β) (value : α) : Prop :=
  ∃ gap token, (∀ b ∈ gap, space b = true) ∧ core token value ∧ word = gap ++ token

theorem spaced_of_text (h : core word value) : Spaced space core word value :=
  ⟨[], word, fun _ hmem => absurd hmem List.not_mem_nil, h, rfl⟩

/-- The texts of the language do not start with space. -/
def StartsOutside (space : β → Bool) (core : List β → α → Prop) : Prop :=
  ∀ {token value}, core token value → ∃ next tail, token = next :: tail ∧ space next = false

theorem StartsOutside.stopsAt (h : StartsOutside space core) {token : List β}
    (htoken : core token value) (rest : List β) : StopsAt space (token ++ rest) := by
  obtain ⟨next, tail, rfl, hnext⟩ := h htoken
  exact stopsAt_cons.mpr hnext

theorem spaced_append (hgap : ∀ b ∈ gap, space b = true) (h : Spaced space core word value) :
    Spaced space core (gap ++ word) value := by
  obtain ⟨inner, token, hinner, htoken, rfl⟩ := h
  refine ⟨gap ++ inner, token, fun b hb => ?_, htoken, (List.append_assoc _ _ _).symm⟩
  exact (List.mem_append.mp hb).elim (hgap b) (hinner b)

/-- What is left of a spaced text when space is skipped. -/
theorem Spaced.dropWhile (hcore : StartsOutside space core) (h : Spaced space core word value)
    (rest : List β) :
    ∃ token, core token value ∧ (word ++ rest).dropWhile space = token ++ rest := by
  obtain ⟨gap, token, hgap, htoken, rfl⟩ := h
  refine ⟨token, htoken, ?_⟩
  rw [List.append_assoc, dropWhile_span hgap (hcore.stopsAt htoken rest)]

end Spaces

section Items

/-- Words that are separated by a comma and ended by the closing character, with space before
either of them. -/
inductive Items (language : List β → α → Prop) (space : β → Bool) (close comma : β) :
    List β → List α → Prop
  | last {word gap : List β} {value : α} (hword : language word value)
      (hgap : ∀ b ∈ gap, space b = true) :
      Items language space close comma (word ++ (gap ++ [close])) [value]
  | more {word gap later : List β} {value : α} {values : List α} (hword : language word value)
      (hgap : ∀ b ∈ gap, space b = true) (hlater : Items language space close comma later values) :
      Items language space close comma (word ++ (gap ++ comma :: later)) (value :: values)

variable {language : List β → α → Prop} {space : β → Bool} {close comma : β}

/-- Space in front of the first word may be left to it. -/
theorem Items.append {core : List β → α → Prop} {gap text : List β}
    (hgap : ∀ b ∈ gap, space b = true) {values : List α}
    (h : Items (Spaced space core) space close comma text values) :
    Items (Spaced space core) space close comma (gap ++ text) values := by
  cases h with
  | last hword hlast =>
      rw [← List.append_assoc]
      exact .last (spaced_append hgap hword) hlast
  | more hword hbetween hlater =>
      rw [← List.append_assoc]
      exact .more (spaced_append hgap hword) hbetween hlater

/-- Skipping space leaves a sequence that starts outside of space. -/
theorem Items.dropWhile {core : List β → α → Prop} (hcore : StartsOutside space core)
    {text : List β} {values : List α} (h : Items (Spaced space core) space close comma text values)
    (rest : List β) :
    ∃ next tail token value, (text ++ rest).dropWhile space = next :: (tail ++ rest) ∧
      core token value ∧ token.head? = some next ∧
      Items (Spaced space core) space close comma (next :: tail) values := by
  cases h with
  | @last word gap value hword hgap =>
      obtain ⟨token, htoken, hskip⟩ := hword.dropWhile hcore (gap ++ [close] ++ rest)
      obtain ⟨next, tail, rfl, hnext⟩ := hcore htoken
      have hinput : word ++ (gap ++ [close]) ++ rest = word ++ (gap ++ [close] ++ rest) := by simp
      refine ⟨next, tail ++ (gap ++ [close]), _, value, ?_, htoken, rfl, ?_⟩
      · rw [hinput, hskip]
        simp
      · exact .last (spaced_of_text htoken) hgap
  | @more word gap later value values hword hgap hlater =>
      obtain ⟨token, htoken, hskip⟩ := hword.dropWhile hcore (gap ++ comma :: later ++ rest)
      obtain ⟨next, tail, rfl, hnext⟩ := hcore htoken
      have hinput : word ++ (gap ++ comma :: later) ++ rest =
          word ++ (gap ++ comma :: later ++ rest) := by simp
      refine ⟨next, tail ++ (gap ++ comma :: later), _, value, ?_, htoken, rfl, ?_⟩
      · rw [hinput, hskip]
        simp
      · exact .more (spaced_of_text htoken) hgap hlater

theorem Items.imp {wider : List β → α → Prop}
    (h : ∀ {word value}, language word value → wider word value) {text : List β} {values : List α}
    (hitems : Items language space close comma text values) :
    Items wider space close comma text values := by
  induction hitems with
  | last hword hgap => exact .last (h hword) hgap
  | more hword hgap _ ih => exact .more (h hword) hgap ih

/-- Every value of a sequence is that of a word. -/
theorem Items.forall_mem {text : List β} {values : List α}
    (h : Items language space close comma text values) :
    ∀ value ∈ values, ∃ word, language word value := by
  induction h with
  | last hword _ => exact fun value hvalue => ⟨_, List.mem_singleton.mp hvalue ▸ hword⟩
  | more hword _ _ ih =>
      intro value hvalue
      rcases List.mem_cons.mp hvalue with rfl | hmem
      · exact ⟨_, hword⟩
      · exact ih value hmem

/-- Every list of values of words has a sequence. -/
theorem Items.exists_of_forall {values : List α} (hne : values ≠ [])
    (h : ∀ value ∈ values, ∃ word, language word value) :
    ∃ text, Items language space close comma text values := by
  induction values with
  | nil => exact absurd rfl hne
  | cons value values ih =>
      obtain ⟨word, hword⟩ := h value List.mem_cons_self
      have hgap : ∀ b ∈ ([] : List β), space b = true := fun _ hmem => absurd hmem List.not_mem_nil
      cases values with
      | nil => exact ⟨_, .last hword hgap⟩
      | cons next values =>
          obtain ⟨text, htext⟩ := ih (List.cons_ne_nil _ _) fun other hother =>
            h other (List.mem_cons_of_mem _ hother)
          exact ⟨_, .more hword hgap htext⟩

/-- The texts of a list behind its opening bracket. -/
def ListText (language : List β → α → Prop) (space : β → Bool) (close comma : β) (text : List β)
    (values : List α) : Prop :=
  (∃ gap, (∀ b ∈ gap, space b = true) ∧ text = gap ++ [close] ∧ values = []) ∨
    Items language space close comma text values

theorem ListText.imp {wider : List β → α → Prop}
    (h : ∀ {word value}, language word value → wider word value) {text : List β} {values : List α}
    (htext : ListText language space close comma text values) :
    ListText wider space close comma text values :=
  htext.imp_right (Items.imp h)

theorem ListText.forall_mem {text : List β} {values : List α}
    (h : ListText language space close comma text values) :
    ∀ value ∈ values, ∃ word, language word value := by
  rcases h with ⟨gap, -, -, rfl⟩ | hitems
  · exact fun value hmem => absurd hmem List.not_mem_nil
  · exact hitems.forall_mem

theorem ListText.exists_of_forall {values : List α}
    (h : ∀ value ∈ values, ∃ word, language word value) :
    ∃ text, ListText language space close comma text values := by
  by_cases hnil : values = []
  · exact ⟨_, .inl ⟨[], fun _ hmem => absurd hmem List.not_mem_nil, rfl, hnil⟩⟩
  · obtain ⟨text, htext⟩ := Items.exists_of_forall hnil h
    exact ⟨text, .inr htext⟩

end Items

section Loops

variable [DecidableEq β] (element : Reader β ε α) (store : σ → α → Except ε σ) (space : β → Bool)
  (close comma : β) (missing : ε)

/-- Read items and store them one after the other, up to the closing character. -/
def readItems (items : σ) (input : List β) : Except ε (σ × List β) :=
  match _hread : element.read input with
  | .error e => .error e
  | .ok (value, rest) =>
      match store items value with
      | .error e => .error e
      | .ok items =>
          match _hskip : rest.dropWhile space with
          | [] => .error missing
          | next :: later =>
              if next = close then .ok (items, later)
              else if next = comma then readItems items later
              else .error missing
termination_by input.length
decreasing_by
  have hconsumed := element.consumes _hread
  have hskipped := length_dropWhile_le space rest
  rw [_hskip, List.length_cons] at hskipped
  omega

variable {element store space close comma missing}
  {language : List β → α → Prop} {follows : List β → Prop}

/-- One step of the loop. -/
theorem readItems_eq (items : σ) (input : List β) :
    readItems element store space close comma missing items input =
      (match element.read input with
      | .error e => .error e
      | .ok (value, rest) =>
          match store items value with
          | .error e => .error e
          | .ok items =>
              match rest.dropWhile space with
              | [] => .error missing
              | next :: later =>
                  if next = close then .ok (items, later)
                  else if next = comma then
                    readItems element store space close comma missing items later
                  else .error missing) := by
  rw [readItems]
  split
  · rename_i hread
    rw [hread]
  · rename_i hread
    rw [hread]
    simp only
    split
    · rfl
    · split
      · rename_i hskip
        rw [hskip]
      · rename_i hskip
        rw [hskip]

/-- Items depend only on how the element reads the rests of the text. -/
theorem readItems_congr {other : Reader β ε α} {items : σ} {input : List β}
    (h : ∀ later, later.length ≤ input.length → element.read later = other.read later) :
    readItems element store space close comma missing items input =
      readItems other store space close comma missing items input := by
  have hsame := (h input (Nat.le_refl _)).symm
  fun_induction readItems element store space close comma missing items input with
  | case1 items input e hread => rw [readItems_eq, hsame, hread]
  | case2 items input value rest hread e hstore =>
      rw [readItems_eq, hsame, hread]
      simp only [hstore]
  | case3 items input value rest hread next hstore hskip =>
      rw [readItems_eq, hsame, hread]
      simp only [hstore, hskip]
  | case4 items input value middle hread next hstore later hskip =>
      rw [readItems_eq, hsame, hread]
      simp only [hstore, hskip, if_true]
  | case5 items input value middle hread next hstore later hskip hne ih =>
      have hlater : later.length < input.length := by
        have hconsumed := element.consumes hread
        have hskipped := length_dropWhile_le space middle
        rw [hskip, List.length_cons] at hskipped
        omega
      have hbehind (behind : List β) (hle : behind.length ≤ later.length) :
          element.read behind = other.read behind := h behind (hle.trans hlater.le)
      conv_rhs => rw [readItems_eq, hsame, hread]
      simp only [hstore, hskip, if_neg hne, if_true]
      exact ih hbehind (hbehind later (Nat.le_refl _)).symm
  | case6 items input value middle hread next hstore symbol later hskip hclose hcomma =>
      rw [readItems_eq, hsame, hread]
      simp only [hstore, hskip, if_neg hclose, if_neg hcomma]

theorem readItems_consumes {items final : σ} {input rest : List β}
    (h : readItems element store space close comma missing items input = .ok (final, rest)) :
    rest.length < input.length := by
  fun_induction readItems element store space close comma missing items input with
  | case1 => cases h
  | case2 => cases h
  | case3 => cases h
  | case4 items input value middle hread next hstore later hrest =>
      cases h
      have hconsumed := element.consumes hread
      have hskipped := length_dropWhile_le space middle
      rw [hrest, List.length_cons] at hskipped
      omega
  | case5 items input value middle hread next hstore later hrest hne ih =>
      have hconsumed := element.consumes hread
      have hskipped := length_dropWhile_le space middle
      rw [hrest, List.length_cons] at hskipped
      have hlater := ih h
      omega
  | case6 => cases h

/-- What the loop takes is a sequence of words, whose values are stored in turn. -/
theorem readItems_sound (helement : element.Reads language follows) {items final : σ}
    {input rest : List β}
    (h : readItems element store space close comma missing items input = .ok (final, rest)) :
    ∃ text values, input = text ++ rest ∧ Items language space close comma text values ∧
      values.foldlM store items = .ok final := by
  fun_induction readItems element store space close comma missing items input with
  | case1 => cases h
  | case2 => cases h
  | case3 => cases h
  | case4 items input value middle hread stored hstore later hrest =>
      cases h
      obtain ⟨word, rfl, hword⟩ := helement.sound hread
      have hmiddle : middle = middle.takeWhile space ++ close :: rest := by
        rw [← hrest, List.takeWhile_append_dropWhile]
      refine ⟨word ++ (middle.takeWhile space ++ [close]), [value], ?_,
        .last hword fun _ hmem => mem_takeWhile hmem, ?_⟩
      · conv_lhs => rw [hmiddle]
        simp
      · rw [List.foldlM_cons, hstore]
        rfl
  | case5 items input value middle hread stored hstore later hrest hne ih =>
      obtain ⟨word, rfl, hword⟩ := helement.sound hread
      obtain ⟨text, values, hlater, hitems, hfinal⟩ := ih h
      have hmiddle : middle = middle.takeWhile space ++ comma :: (text ++ rest) := by
        rw [← hlater, ← hrest, List.takeWhile_append_dropWhile]
      refine ⟨word ++ (middle.takeWhile space ++ comma :: text), value :: values, ?_,
        .more hword (fun _ hmem => mem_takeWhile hmem) hitems, ?_⟩
      · conv_lhs => rw [hmiddle]
        simp
      · rw [List.foldlM_cons, hstore]
        exact hfinal
  | case6 => cases h

/-- The values are stored from the first one on. -/
theorem foldlM_cons_eq_ok {value : α} {values : List α} {items final : σ}
    (h : (value :: values).foldlM store items = .ok final) :
    ∃ stored, store items value = .ok stored ∧ values.foldlM store stored = .ok final := by
  rw [List.foldlM_cons] at h
  cases hstore : store items value with
  | error e =>
      rw [hstore] at h
      cases h
  | ok stored =>
      rw [hstore] at h
      exact ⟨stored, rfl, h⟩

/-- Every sequence of words is taken when the values can be stored. -/
theorem readItems_complete (helement : element.Reads language follows)
    (hfollows : ∀ next rest, space next = true ∨ next = close ∨ next = comma →
      follows (next :: rest))
    (hclose : space close = false) (hcomma : space comma = false) (hne : comma ≠ close)
    {text rest : List β} {values : List α} (h : Items language space close comma text values)
    {items final : σ} (hfinal : values.foldlM store items = .ok final) :
    readItems element store space close comma missing items (text ++ rest) =
      .ok (final, rest) := by
  have hgapFollows {gap : List β} (hgap : ∀ b ∈ gap, space b = true) {next : β}
      (hnext : next = close ∨ next = comma) (later : List β) : follows (gap ++ next :: later) := by
    cases gap with
    | nil => exact hfollows _ _ (.inr hnext)
    | cons first gap => exact hfollows _ _ (.inl (hgap _ List.mem_cons_self))
  induction h generalizing items with
  | @last word gap value hword hgap =>
      obtain ⟨stored, hstore, hdone⟩ := foldlM_cons_eq_ok hfinal
      have hinput : word ++ (gap ++ [close]) ++ rest = word ++ (gap ++ close :: rest) := by simp
      have hread := helement.complete hword (hgapFollows hgap (.inl rfl) rest)
      have hskip : (gap ++ close :: rest).dropWhile space = close :: rest :=
        dropWhile_span hgap (stopsAt_cons.mpr hclose)
      rw [hinput, readItems_eq, hread]
      simp only [hstore, hskip, if_true]
      cases hdone
      rfl
  | @more word gap later value values hword hgap hlater ih =>
      obtain ⟨stored, hstore, hdone⟩ := foldlM_cons_eq_ok hfinal
      have hinput : word ++ (gap ++ comma :: later) ++ rest =
          word ++ (gap ++ comma :: (later ++ rest)) := by simp
      have hread := helement.complete hword (hgapFollows hgap (.inr rfl) (later ++ rest))
      have hskip : (gap ++ comma :: (later ++ rest)).dropWhile space = comma :: (later ++ rest) :=
        dropWhile_span hgap (stopsAt_cons.mpr hcomma)
      rw [hinput, readItems_eq, hread]
      simp only [hstore, hskip, if_neg hne, if_true]
      exact ih hdone

/-- The items of a list behind its opening bracket, or none where it closes at once. -/
def readList (element : Reader β ε α) (store : σ → α → Except ε σ) (space : β → Bool)
    (close comma : β) (missing : ε) (empty : σ) (input : List β) : Except ε (σ × List β) :=
  match input.dropWhile space with
  | [] => readItems element store space close comma missing empty []
  | next :: rest =>
      if next = close then .ok (empty, rest)
      else readItems element store space close comma missing empty (next :: rest)

theorem readList_congr {other : Reader β ε α} {empty : σ} {input : List β}
    (h : ∀ later, later.length ≤ input.length → element.read later = other.read later) :
    readList element store space close comma missing empty input =
      readList other store space close comma missing empty input := by
  have hskipped := length_dropWhile_le space input
  rw [readList, readList]
  split
  · exact readItems_congr fun later hlater => h later (hlater.trans (Nat.zero_le _))
  · rename_i next rest hskip
    rw [hskip] at hskipped
    rw [readItems_congr fun later hlater => h later (hlater.trans hskipped)]

theorem readList_consumes {empty final : σ} {input rest : List β}
    (h : readList element store space close comma missing empty input = .ok (final, rest)) :
    rest.length < input.length := by
  have hskipped := length_dropWhile_le space input
  rw [readList] at h
  split at h
  · exact absurd (readItems_consumes h) (Nat.not_lt_zero _)
  · rename_i next later hskip
    rw [hskip] at hskipped
    split at h
    · cases h
      exact hskipped
    · exact (readItems_consumes h).trans_le hskipped

variable {core : List β → α → Prop}

theorem readList_sound (helement : element.Reads (Spaced space core) follows) {empty final : σ}
    {input rest : List β}
    (h : readList element store space close comma missing empty input = .ok (final, rest)) :
    ∃ text values, input = text ++ rest ∧
      ListText (Spaced space core) space close comma text values ∧
      values.foldlM store empty = .ok final := by
  have hgap : ∀ b ∈ input.takeWhile space, space b = true := fun _ hmem => mem_takeWhile hmem
  have hinput := List.takeWhile_append_dropWhile (p := space) (l := input)
  rw [readList] at h
  split at h
  · exact absurd (readItems_consumes h) (Nat.not_lt_zero _)
  · rename_i next later hskip
    rw [hskip] at hinput
    split at h
    · rename_i hclose
      cases h
      refine ⟨input.takeWhile space ++ [close], [], ?_, .inl ⟨_, hgap, rfl, rfl⟩, rfl⟩
      rw [← hclose, List.append_assoc]
      exact hinput.symm
    · obtain ⟨text, values, htext, hitems, hfinal⟩ := readItems_sound helement h
      refine ⟨input.takeWhile space ++ text, values, ?_, .inr (hitems.append hgap), hfinal⟩
      rw [List.append_assoc, ← htext]
      exact hinput.symm

theorem readList_complete (helement : element.Reads (Spaced space core) follows)
    (hcore : StartsOutside space core)
    (hopens : ∀ {token value}, core token value → token.head? ≠ some close)
    (hfollows : ∀ next rest, space next = true ∨ next = close ∨ next = comma →
      follows (next :: rest))
    (hclose : space close = false) (hcomma : space comma = false) (hne : comma ≠ close)
    {text rest : List β} {values : List α}
    (h : ListText (Spaced space core) space close comma text values) {empty final : σ}
    (hfinal : values.foldlM store empty = .ok final) :
    readList element store space close comma missing empty (text ++ rest) = .ok (final, rest) := by
  rw [readList]
  rcases h with ⟨gap, hgap, rfl, rfl⟩ | hitems
  · have hskip : (gap ++ [close] ++ rest).dropWhile space = close :: rest := by
      rw [List.append_assoc]
      exact dropWhile_span hgap (stopsAt_cons.mpr hclose)
    cases hfinal
    split
    · rename_i hnil
      cases hnil.symm.trans hskip
    · rename_i next later hcons
      cases hcons.symm.trans hskip
      rw [if_pos rfl]
  · obtain ⟨next, tail, token, value, hskip, htoken, hhead, hitems'⟩ := hitems.dropWhile hcore rest
    split
    · rename_i hnil
      cases hnil.symm.trans hskip
    · rename_i next' later hcons
      cases hcons.symm.trans hskip
      have hnext : next ≠ close := fun heq => hopens htoken (hhead.trans (congrArg some heq))
      rw [if_neg hnext]
      exact readItems_complete helement hfollows hclose hcomma hne hitems' hfinal

end Loops

end Nvcr.TextReaders
