/-! # Texts

A text is a list of characters, so that every function on texts is a recursion over the
list and every law about one is an induction.  String literals stand for texts wherever
one is expected.

* `pieces` cuts a text at a separator and `List.intercalate` puts it together again;
* `replaceAll` substitutes a pattern from left to right, without overlaps;
* `isBlank` is Unicode's `White_Space` property, and `trim` removes blanks at both ends. -/

namespace NinjaPlan

/-- A text, as the list of its characters. -/
abbrev Text := List Char

/-- A string literal stands for its characters. -/
instance Text.ofString : Coe String Text := ⟨String.toList⟩

namespace Text

/-! ### Cutting and joining -/

section pieces

variable {α : Type} [DecidableEq α]

/-- The pieces between the occurrences of `sep`; there is one more piece than occurrences. -/
def pieces (sep : α) : List α → List (List α)
  | [] => [[]]
  | c :: cs =>
    if c = sep then [] :: pieces sep cs
    else match pieces sep cs with
      | [] => [[c]]
      | p :: ps => (c :: p) :: ps

theorem pieces_ne_nil (sep : α) (s : List α) : pieces sep s ≠ [] := by
  cases s with
  | nil => simp [pieces]
  | cons c cs =>
    simp only [pieces]
    split
    · simp
    · split <;> simp

/-- Joining the pieces with the separator gives the text back. -/
theorem intercalate_pieces (sep : α) (s : List α) : [sep].intercalate (pieces sep s) = s := by
  induction s with
  | nil => rfl
  | cons c cs ih =>
    simp only [pieces]
    split
    · next h =>
      subst h
      obtain ⟨p, ps, hp⟩ := List.exists_cons_of_ne_nil (pieces_ne_nil c cs)
      rw [hp] at ih ⊢
      simpa [List.intercalate, List.intersperse] using ih
    · split
      · next h => exact absurd h (pieces_ne_nil sep cs)
      · next p ps hp =>
        rw [hp] at ih
        cases ps with
        | nil => simpa [List.intercalate, List.intersperse] using ih
        | cons q qs => simpa [List.intercalate, List.intersperse] using ih

theorem not_mem_of_mem_pieces {sep : α} {s p : List α} (h : p ∈ pieces sep s) : sep ∉ p := by
  induction s generalizing p with
  | nil => simp [pieces] at h; simp [h]
  | cons c cs ih =>
    simp only [pieces] at h
    split at h
    · rcases List.mem_cons.1 h with rfl | h
      · simp
      · exact ih h
    · next hc =>
      split at h
      · next hp => exact absurd hp (pieces_ne_nil sep cs)
      · next q qs hp =>
        rcases List.mem_cons.1 h with rfl | h
        · have := ih (p := q) (by simp [hp])
          simp [this, Ne.symm hc]
        · exact ih (by simp [hp, h])

theorem pieces_eq_splitOn (sep : α) (s : List α) : pieces sep s = s.splitOn sep := by
  induction s with
  | nil => rfl
  | cons c cs ih =>
    rw [List.splitOn_cons_eq_if_modifyHead, pieces, ih]
    by_cases h : c = sep
    · simp [h]
    · obtain ⟨p, ps, hp⟩ := List.exists_cons_of_ne_nil (List.splitOn_ne_nil sep cs)
      simp [h, hp]

/-- A text without the separator is the first piece of what begins with it. -/
theorem pieces_append_cons {sep : α} {s : List α} (h : sep ∉ s) (rest : List α) :
    pieces sep (s ++ sep :: rest) = s :: pieces sep rest := by
  rw [pieces_eq_splitOn, pieces_eq_splitOn, List.splitOn_append_cons_self_of_not_mem h]

/-- A separator cuts a text into the pieces on its two sides. -/
theorem pieces_append_sep (sep : α) (s t : List α) :
    pieces sep (s ++ sep :: t) = pieces sep s ++ pieces sep t := by
  simp only [pieces_eq_splitOn]
  exact List.splitOn_append_cons_self s t

end pieces

theorem intercalate_concat (sep : Char) {pieces : List Text} (h : pieces ≠ []) (last : Text) :
    [sep].intercalate (pieces ++ [last]) = [sep].intercalate pieces ++ sep :: last := by
  induction pieces with
  | nil => exact absurd rfl h
  | cons p ps ih =>
      by_cases hps : ps = []
      · simp [hps]
      · rw [List.cons_append, List.intercalate_cons_of_ne_nil (by simp), ih hps,
          List.intercalate_cons_of_ne_nil hps]
        simp only [List.append_assoc]

/-! ### Substitution -/

/-- Replaces `pat` by `new` after leaving out the next `skip` characters, which are the rest
of an occurrence already replaced. -/
def replaceFrom (pat new : Text) : Nat → Text → Text
  | _, [] => []
  | skip + 1, _ :: cs => replaceFrom pat new skip cs
  | 0, c :: cs =>
    if pat.isPrefixOf (c :: cs) then new ++ replaceFrom pat new (pat.length - 1) cs
    else c :: replaceFrom pat new 0 cs

/-- Replaces every occurrence of the nonempty `pat` by `new`, from left to right. -/
def replaceAll (pat new s : Text) : Text := replaceFrom pat new 0 s

/-- Where the pattern does not occur nothing is replaced. -/
theorem replaceAll_of_not_infix {pat s : Text} (h : ¬ pat <:+: s) (new : Text) :
    replaceAll pat new s = s := by
  unfold replaceAll
  induction s with
  | nil => rfl
  | cons c cs ih =>
    have hhere : pat.isPrefixOf (c :: cs) = false := by
      rw [Bool.eq_false_iff, ne_eq, List.isPrefixOf_iff_prefix]
      exact fun hp => h hp.isInfix
    have hthere : ¬ pat <:+: cs := fun hp => h (List.infix_cons hp)
    rw [replaceFrom, hhere, if_neg Bool.false_ne_true, ih hthere]

/-- Writes every `c` twice. -/
def double (c : Char) (s : Text) : Text := s.flatMap fun d => if d = c then [c, c] else [d]

@[simp] theorem double_nil (c : Char) : double c [] = [] := rfl

theorem double_cons (c d : Char) (s : Text) :
    double c (d :: s) = (if d = c then [c, c] else [d]) ++ double c s := rfl

@[simp] theorem double_append (c : Char) (s t : Text) :
    double c (s ++ t) = double c s ++ double c t := by simp [double]

/-! ### Blanks -/

/-- Unicode's `White_Space` property. -/
def isBlank (c : Char) : Bool :=
  let n := c.toNat
  (9 ≤ n && n ≤ 13) || n == 0x20 || n == 0x85 || n == 0xA0 || n == 0x1680 ||
    (0x2000 ≤ n && n ≤ 0x200A) || n == 0x2028 || n == 0x2029 || n == 0x202F || n == 0x205F ||
    n == 0x3000

def trimEnd (s : Text) : Text := (s.reverse.dropWhile isBlank).reverse

/-- The text without the blanks at either end. -/
def trim (s : Text) : Text := trimEnd (s.dropWhile isBlank)

@[simp] theorem trim_nil : trim [] = [] := rfl

/-! ### Other queries -/

/-- Whether the text holds a line feed or a carriage return. -/
def hasLineBreak (s : Text) : Bool := s.any fun c => c == '\n' || c == '\r'

/-- A natural number in decimal digits. -/
def ofNat (n : Nat) : Text := (toString n).toList

/-- An integer in decimal digits, with a sign if it is negative. -/
def ofInt (n : Int) : Text := (toString n).toList

end Text
end NinjaPlan
