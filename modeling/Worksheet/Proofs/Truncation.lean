import Mathlib.Data.Option.Basic
import Worksheet.Log.Journal

/-!
# Contexts with long texts cut

Cutting looks at the values that are reached from a context through objects alone.  It keeps every
place that there is, and changes nothing there but a text that is too long.  What is left of such a
text is longer than the limit itself, since a mark stands for the rest.  Yet cutting it again takes
the mark off and puts it back, so a context that has been cut stays as it is.
-/

namespace Worksheet

/-- The value at a place: the positions of the entries that lead to it, from object to object. -/
def Json.at? : Json → List Nat → Option Json
  | v, [] => some v
  | .object entries, i :: place => entries[i]?.bind fun entry => entry.2.at? place
  | _, _ :: _ => none

namespace Log

/-! ## Texts -/

variable {s : List CodePoint} {v : Json} {c : Context} {place : List Nat}

/-- The greatest length of what is left of a text. -/
def maxTruncatedLength : Nat := maxTextLength + truncationMark.length

theorem truncateText_of_le (h : s.length ≤ maxTextLength) : truncateText s = s :=
  if_neg (Nat.not_lt.mpr h)

theorem truncateText_of_lt (h : maxTextLength < s.length) :
    truncateText s = s.take maxTextLength ++ truncationMark :=
  if_pos h

theorem length_truncateText_of_lt (h : maxTextLength < s.length) :
    (truncateText s).length = maxTruncatedLength := by
  rw [truncateText_of_lt h, List.length_append, List.length_take_of_le (Nat.le_of_lt h)]
  rfl

theorem length_truncateText_le (s : List CodePoint) :
    (truncateText s).length ≤ maxTruncatedLength := by
  rcases Nat.lt_or_ge maxTextLength s.length with h | h
  · exact Nat.le_of_eq (length_truncateText_of_lt h)
  · rw [truncateText_of_le h]
    exact Nat.le_add_right_of_le h

/-- What is left of a text is too long again, but it starts with the same characters and ends with
the mark. -/
theorem truncateText_truncateText (s : List CodePoint) :
    truncateText (truncateText s) = truncateText s := by
  rcases Nat.lt_or_ge maxTextLength s.length with h | h
  · have hagain : maxTextLength < (truncateText s).length := by
      rw [length_truncateText_of_lt h]
      decide
    have hfront : (s.take maxTextLength).length = maxTextLength :=
      List.length_take_of_le (Nat.le_of_lt h)
    rw [truncateText_of_lt hagain, truncateText_of_lt h, List.take_left' hfront]
  · rw [truncateText_of_le h, truncateText_of_le h]

/-! ## Objects -/

theorem truncateContext_eq_map (c : Context) :
    truncateContext c = c.map fun entry => (entry.1, truncate entry.2) := by
  induction c with
  | nil => rw [truncateContext, List.map_nil]
  | cons entry rest ih =>
      obtain ⟨key, v⟩ := entry
      rw [truncateContext, ih, List.map_cons]

theorem map_fst_truncateContext (c : Context) :
    (truncateContext c).map Prod.fst = c.map Prod.fst := by
  rw [truncateContext_eq_map, List.map_map]
  rfl

/-- Cutting an object cuts the value at each place in it. -/
theorem at?_truncate (v : Json) (place : List Nat) :
    (truncate v).at? place = (v.at? place).map truncate := by
  induction place generalizing v with
  | nil => rw [Json.at?, Json.at?, Option.map_some]
  | cons i place ih =>
      cases v with
      | object entries =>
          rw [truncate, Json.at?, Json.at?, truncateContext_eq_map, List.getElem?_map,
            Option.bind_map, Option.map_bind]
          exact congrArg _ (funext fun entry => ih entry.2)
      | _ => rfl

mutual

-- by induction on how objects are nested; arrays are left as they are, whatever they hold
theorem truncate_truncate : ∀ v : Json, truncate (truncate v) = truncate v
  | .text s => by rw [truncate, truncate, truncateText_truncateText]
  | .object entries => by rw [truncate, truncate, truncateContext_truncateContext entries]
  | .null => rfl
  | .bool _ => rfl
  | .number _ => rfl
  | .array _ => rfl

theorem truncateContext_truncateContext :
    ∀ c : Context, truncateContext (truncateContext c) = truncateContext c
  | [] => rfl
  | (key, v) :: rest => by
      rw [truncateContext, truncateContext, truncate_truncate v,
        truncateContext_truncateContext rest]

end

/-! ## Contexts -/

/-- What becomes of a value where a context is cut: a text keeps its first characters if it is too
long, an object keeps its keys in their order, and anything else stays as it is. -/
def CutsTo : Json → Json → Prop
  | .text s, w => w = .text (if s.length ≤ maxTextLength then s
      else s.take maxTextLength ++ truncationMark)
  | .object entries, w => ∃ entries' : Context, w = .object entries' ∧
      entries'.map Prod.fst = entries.map Prod.fst
  | v, w => w = v

theorem cutsTo_truncate (v : Json) : CutsTo v (truncate v) := by
  cases v with
  | text s =>
      show truncate (.text s) = _
      rw [truncate]
      split
      · next h => rw [truncateText_of_le h]
      · next h => rw [truncateText_of_lt (Nat.lt_of_not_le h)]
  | object entries => exact ⟨truncateContext entries, rfl, map_fst_truncateContext entries⟩
  | _ => rfl

/-- A text in what has been cut is what is left of a text. -/
theorem length_le_of_at?_truncate {t : List CodePoint}
    (h : (truncate v).at? place = some (.text t)) : t.length ≤ maxTruncatedLength := by
  rw [at?_truncate] at h
  obtain ⟨w, -, hw⟩ := Option.map_eq_some_iff.mp h
  cases w with
  | text s =>
      obtain rfl := Json.text.inj hw
      exact length_truncateText_le s
  | _ => cases hw

/-- **Cutting a context keeps its places, and a context that has been cut stays as it is.**  At each
place that is reached through objects there is something after cutting exactly if there was before:
an object with the same keys in the same order, a text that is as it was unless it was longer than
256 code points, or the same value of another sort.  No text there is longer than 270 code points,
and cutting again changes nothing. -/
theorem truncateContext_stable (c : Context) :
    (∀ place, Option.Rel CutsTo ((Json.object c).at? place)
      ((Json.object (truncateContext c)).at? place)) ∧
    (∀ place t, (Json.object (truncateContext c)).at? place = some (.text t) → t.length ≤ 270) ∧
    truncateContext (truncateContext c) = truncateContext c := by
  have hcut : Json.object (truncateContext c) = truncate (.object c) := rfl
  refine ⟨fun place => ?_, fun place t h => ?_, truncateContext_truncateContext c⟩
  · rw [hcut, at?_truncate]
    cases (Json.object c).at? place with
    | none => exact .none
    | some v => exact .some (cutsTo_truncate v)
  · rw [hcut] at h
    exact length_le_of_at?_truncate h

/-- An event that has been cut is recorded as the event itself is. -/
theorem Journal.emit_truncated (j : Journal) (r : Record) :
    j.emit { r with event := r.event.truncated } = j.emit r := by
  unfold Journal.emit Event.truncated
  dsimp only
  rw [truncateContext_truncateContext]

end Log

end Worksheet
