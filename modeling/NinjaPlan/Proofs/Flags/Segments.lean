import Mathlib.Data.List.DropRight
import NinjaPlan.BuildFile.Render

/-! # Segments of flags

Flags are put together segment by segment.  What comes of it is the text of the segments that are
not blank, trimmed and with a space between them (`appendSegments_joinWords`).  Doubling dollar
signs makes no blank and removes none, so it may be done to the segments or to the whole text
(`double_joinWords`). -/

namespace NinjaPlan

namespace Text

section double

variable {c : Char}

theorem double_eq_nil_iff {s : Text} : double c s = [] ↔ s = [] := by
  cases s with
  | nil => simp
  | cons d s =>
      rw [double_cons]
      split <;> simp

theorem double_reverse (s : Text) : double c s.reverse = (double c s).reverse := by
  induction s with
  | nil => rfl
  | cons d s ih =>
      rw [List.reverse_cons, double_append, ih, double_cons, double_cons, List.reverse_append,
        double_nil, List.append_nil]
      split <;> rfl

theorem double_dropWhile (hc : isBlank c = false) (s : Text) :
    (double c s).dropWhile isBlank = double c (s.dropWhile isBlank) := by
  induction s with
  | nil => rfl
  | cons d s ih =>
      rw [double_cons]
      by_cases hd : d = c
      · subst hd
        simp [hc, double_cons]
      · rw [if_neg hd, List.singleton_append]
        cases hb : isBlank d with
        | true => rw [List.dropWhile_cons_of_pos hb, List.dropWhile_cons_of_pos hb, ih]
        | false =>
            have hnot : ¬ isBlank d = true := by simp [hb]
            rw [List.dropWhile_cons_of_neg hnot, List.dropWhile_cons_of_neg hnot, double_cons,
              if_neg hd, List.singleton_append]

theorem double_trim (hc : isBlank c = false) (s : Text) :
    double c (trim s) = trim (double c s) := by
  unfold trim trimEnd
  rw [double_reverse, ← double_dropWhile hc, double_reverse, double_dropWhile hc]

theorem double_intercalate {sep : Char} (hc : sep ≠ c) (words : List Text) :
    double c ([sep].intercalate words) = [sep].intercalate (words.map (double c)) := by
  induction words with
  | nil => rfl
  | cons w words ih =>
      cases words with
      | nil => simp
      | cons v words =>
          have hsep : double c [sep] = [sep] := by simp [double, hc]
          rw [List.intercalate_cons_cons, double_append, double_append, ih, hsep, List.map_cons,
            List.map_cons, List.map_cons, List.intercalate_cons_cons]

end double
end Text

/-- A segment as it stands behind others. -/
def spaced (segment : Text) : Text :=
  if (Text.trim segment).isEmpty then [] else ' ' :: Text.trim segment

theorem appendSegment_eq {flags : Text} (h : flags ≠ []) (segment : Text) :
    appendSegment flags segment = flags ++ spaced segment := by
  unfold appendSegment spaced
  dsimp only
  split
  · rw [List.append_nil]
  · rw [if_neg (by simpa using h)]

namespace BuildFile

/-- The words that are not blank, trimmed. -/
def properWords (words : List Text) : List Text := (words.map Text.trim).filter fun w => !w.isEmpty

theorem joinWords_eq (words : List Text) : joinWords words = [' '].intercalate (properWords words) :=
  rfl

theorem properWords_append (words more : List Text) :
    properWords (words ++ more) = properWords words ++ properWords more := by
  simp [properWords]

theorem properWords_cons_of_trimmed {w : Text} (hne : w ≠ []) (htrim : Text.trim w = w)
    (words : List Text) : properWords (w :: words) = w :: properWords words := by
  simp [properWords, htrim, hne]

theorem properWords_singleton (w : Text) :
    properWords [w] = if (Text.trim w).isEmpty then [] else [Text.trim w] := by
  cases h : (Text.trim w).isEmpty <;> simp [properWords, h]

theorem properWords_double (words : List Text) :
    properWords (words.map (Text.double '$')) = (properWords words).map (Text.double '$') := by
  have htrim : (words.map (Text.double '$')).map Text.trim =
      (words.map Text.trim).map (Text.double '$') := by
    rw [List.map_map, List.map_map]
    exact List.map_congr_left fun w _ => (Text.double_trim (by decide) w).symm
  have hempty : ∀ w : Text, (Text.double '$' w).isEmpty = w.isEmpty := by
    intro w
    rw [Bool.eq_iff_iff, List.isEmpty_iff, List.isEmpty_iff, Text.double_eq_nil_iff]
  unfold properWords
  rw [htrim, List.filter_map]
  congr 1
  exact List.filter_congr fun w _ => by rw [Function.comp_apply, hempty]

theorem double_joinWords (words : List Text) :
    Text.double '$' (joinWords words) = joinWords (words.map (Text.double '$')) := by
  rw [joinWords_eq, joinWords_eq, Text.double_intercalate (by decide), properWords_double]

theorem joinWords_eq_nil_iff {words : List Text} : joinWords words = [] ↔ properWords words = [] := by
  have hproper : ∀ w ∈ properWords words, w ≠ [] := by
    intro w hw
    simpa using (List.mem_filter.mp hw).2
  rw [joinWords_eq]
  cases hwords : properWords words with
  | nil => simp
  | cons w more =>
      have hne := hproper w (by simp [hwords])
      cases more with
      | nil => simpa using hne
      | cons v more => simp

theorem appendSegment_joinWords (words : List Text) (segment : Text) :
    appendSegment (joinWords words) segment = joinWords (words ++ [segment]) := by
  rw [joinWords_eq (words ++ [segment]), properWords_append, properWords_singleton]
  unfold appendSegment
  dsimp only
  split
  · rw [List.append_nil, joinWords_eq]
  · split
    · next hblank =>
        rw [joinWords_eq_nil_iff.mp (List.isEmpty_iff.mp hblank)]
        simp
    · next hsome =>
        have hne : properWords words ≠ [] := by simpa [joinWords_eq_nil_iff] using hsome
        rw [joinWords_eq, Text.intercalate_concat ' ' hne]

theorem appendSegments_joinWords (words segments : List Text) :
    appendSegments (joinWords words) segments = joinWords (words ++ segments) := by
  induction segments generalizing words with
  | nil => simp [appendSegments]
  | cons s segments ih =>
      have hstep : appendSegments (joinWords words) (s :: segments) =
          appendSegments (appendSegment (joinWords words) s) segments := rfl
      rw [hstep, appendSegment_joinWords, ih, List.append_assoc, List.singleton_append]

end BuildFile
end NinjaPlan
