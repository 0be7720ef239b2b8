import Mathlib.Data.List.Forall2
import NinjaPlan.Shell.Quote
import NinjaPlan.Shell.Words

/-! # Quoted texts are words

A piece of a command *adds* a text if the shell reads exactly this text from it, as a part of the
word it stands in (`Adds`).  Pieces that follow one another add their texts one after the other
(`Adds.append`), so a quoted text is looked at chunk by chunk: each chunk adds the characters it
was made from (`adds_write`), whatever the style, and so does the whole (`adds_quoteWord`).

Pieces with blanks between them are the words of a command (`words?_intercalate`). -/

namespace NinjaPlan.Shell

/-- Outside quotes, the piece adds a text to the word begun, or begins a word with it. -/
def Adds (piece s : Text) : Prop :=
  ∀ word rest, wordsFrom .bare word (piece ++ rest) = wordsFrom .bare (some (word.getD [] ++ s)) rest

theorem Adds.append {piece other s t : Text} (h : Adds piece s) (g : Adds other t) :
    Adds (piece ++ other) (s ++ t) := by
  intro word rest
  rw [List.append_assoc, h, g, Option.getD_some, List.append_assoc]

/-! ### Single characters -/

theorem wordsFrom_blank (word : Option Text) (rest : Text) :
    wordsFrom .bare word (' ' :: rest) = (wordsFrom .bare none rest).map (word.toList ++ ·) := by
  cases rest <;> rfl

theorem wordsFrom_open_single (word : Option Text) (rest : Text) :
    wordsFrom .bare word ('\x27' :: rest) = wordsFrom .single (some (word.getD [])) rest := by
  cases rest <;> rfl

theorem wordsFrom_open_double (word : Option Text) (rest : Text) :
    wordsFrom .bare word ('\x22' :: rest) = wordsFrom .double (some (word.getD [])) rest := by
  cases rest <;> rfl

theorem wordsFrom_close_double (word : Option Text) (rest : Text) :
    wordsFrom .double word ('\x22' :: rest) = wordsFrom .bare word rest := by
  cases rest <;> rfl

/-- The character means itself outside quotes. -/
def Plain (c : Char) : Prop := isSeparator c = false ∧ c ≠ '\x27' ∧ c ≠ '\x22' ∧ c ≠ '\\'

instance instDecidablePlain (c : Char) : Decidable (Plain c) :=
  inferInstanceAs (Decidable (isSeparator c = false ∧ c ≠ '\x27' ∧ c ≠ '\x22' ∧ c ≠ '\\'))

theorem wordsFrom_plain {c : Char} (h : Plain c) (word : Option Text) (rest : Text) :
    wordsFrom .bare word (c :: rest) = wordsFrom .bare (some (word.getD [] ++ [c])) rest := by
  obtain ⟨hblank, hsingle, hdouble, hescape⟩ := h
  cases rest <;> simp [wordsFrom, hblank, hsingle, hdouble, hescape]

theorem adds_of_plain {s : Text} (hne : s ≠ []) (h : ∀ c ∈ s, Plain c) : Adds s s := by
  induction s with
  | nil => exact absurd rfl hne
  | cons c s ih =>
      obtain ⟨hc, hs⟩ := List.forall_mem_cons.mp h
      intro word rest
      rw [List.cons_append, wordsFrom_plain hc]
      cases s with
      | nil => rfl
      | cons d s =>
          rw [ih (List.cons_ne_nil d s) hs, Option.getD_some, List.append_assoc]
          rfl

theorem plain_of_isBareChar {c : Char} (h : isBareChar c = true) : Plain c := by
  have hne : ∀ d, isBareChar d = false → c ≠ d := by
    rintro d hd rfl
    rw [h] at hd
    cases hd
  refine ⟨?_, hne _ (by decide), hne _ (by decide), hne _ (by decide)⟩
  simp [isSeparator, hne ' ' (by decide), hne '\t' (by decide), hne '\n' (by decide)]

/-! ### Chunks -/

/-- The character is read back from a chunk in this style. -/
def Style.Holds : Style → Char → Prop
  | bare, c => Plain c
  | single, c => c ≠ '\x27'
  | double, _ => True

theorem Style.holds_of_admits {style : Style} {c : Char} (h : style.admits c = true) :
    style.Holds c := by
  cases style with
  | bare => exact plain_of_isBareChar h
  | single =>
      rintro rfl
      cases h
  | double => trivial

theorem wordsFrom_single {chunk : Text} (h : ∀ c ∈ chunk, c ≠ '\x27') (word : Text) (rest : Text) :
    wordsFrom .single (some word) (chunk ++ '\x27' :: rest) =
      wordsFrom .bare (some (word ++ chunk)) rest := by
  induction chunk generalizing word with
  | nil => simp [wordsFrom]
  | cons c chunk ih =>
      obtain ⟨hc, hchunk⟩ := List.forall_mem_cons.mp h
      rw [List.cons_append, wordsFrom, if_neg hc, Option.getD_some, ih hchunk, List.append_assoc]
      rfl

/-- A character between double quotes is read back, with its backslash or without. -/
theorem wordsFrom_escapeDouble (c : Char) (word : Text) (rest : Text) :
    wordsFrom .double (some word) (escapeDouble c ++ rest) =
      wordsFrom .double (some (word ++ [c])) rest := by
  unfold escapeDouble
  split
  · next hc =>
      have hescapable : isDoubleEscapable c = true := decide_eq_true hc
      have hline : c ≠ '\n' := by
        rintro rfl
        cases hescapable
      simp [wordsFrom, hescapable, hline]
  · next hc =>
      have hquote : c ≠ '\x22' := by
        rintro rfl
        exact hc (by decide)
      have hescape : c ≠ '\\' := by
        rintro rfl
        exact hc (by decide)
      rw [List.singleton_append]
      cases rest <;> simp [wordsFrom, hquote, hescape]

theorem wordsFrom_double (chunk word rest : Text) :
    wordsFrom .double (some word) (chunk.flatMap escapeDouble ++ '\x22' :: rest) =
      wordsFrom .bare (some (word ++ chunk)) rest := by
  induction chunk generalizing word with
  | nil => rw [List.flatMap_nil, List.nil_append, wordsFrom_close_double, List.append_nil]
  | cons c chunk ih =>
      rw [List.flatMap_cons, List.append_assoc, wordsFrom_escapeDouble, ih, List.append_assoc]
      rfl

theorem adds_write {style : Style} {chunk : Text} (hne : chunk ≠ [])
    (h : ∀ c ∈ chunk, style.Holds c) : Adds (style.write chunk) chunk := by
  cases style with
  | bare => exact adds_of_plain hne h
  | single =>
      intro word rest
      have hopen : Style.single.write chunk ++ rest = '\x27' :: (chunk ++ '\x27' :: rest) := by
        simp [Style.write]
      rw [hopen, wordsFrom_open_single, wordsFrom_single h]
  | double =>
      intro word rest
      have hopen : Style.double.write chunk ++ rest =
          '\x22' :: (chunk.flatMap escapeDouble ++ '\x22' :: rest) := by
        simp [Style.write]
      rw [hopen, wordsFrom_open_double, wordsFrom_double]

/-! ### Words -/

/-- The styles that are open for a chunk: there is one, and each holds the characters read. -/
structure Styles.Open (styles : Styles) (chunk : Text) : Prop where
  some : styles ≠ []
  holds : ∀ style ∈ styles, ∀ c ∈ chunk, style.Holds c

theorem Styles.Open.adds {styles : Styles} {chunk : Text} (h : styles.Open chunk)
    (hne : chunk ≠ []) : Adds (styles.write chunk) chunk := by
  obtain ⟨style, more, rfl⟩ := List.exists_cons_of_ne_nil h.some
  exact adds_write hne (h.holds style List.mem_cons_self)

theorem Styles.open_reverse {styles : Styles} {chunk : Text} (h : styles.Open chunk) :
    styles.Open chunk.reverse :=
  ⟨h.some, fun style hs c hc => h.holds style hs c (List.mem_reverse.mp hc)⟩

/-- Every character starts a chunk in some style: what no style between quotes admits is written
in the other one. -/
theorem Styles.start_open (c : Char) : (Styles.start c).Open [c] := by
  unfold Styles.start
  split
  · next hc =>
      subst hc
      refine ⟨List.cons_ne_nil _ _, ?_⟩
      intro style hstyle d hd
      obtain rfl := List.mem_singleton.mp hstyle
      obtain rfl := List.mem_singleton.mp hd
      show '^' ≠ '\x27'
      decide
  · next hc =>
      constructor
      · by_cases hs : c ∈ ['\x27', '^', '\\']
        · have hd : Style.double.admits c = true := by
            rcases List.mem_cons.mp hs with rfl | hs
            · rfl
            · obtain rfl := List.mem_singleton.mp (List.mem_of_ne_of_mem hc hs)
              rfl
          exact List.ne_nil_of_mem (List.mem_filter.mpr ⟨by simp [Styles.all], hd⟩)
        · have hsingle : Style.single.admits c = true := by
            show (!decide (c ∈ ['\x27', '^', '\\'])) = true
            rw [decide_eq_false hs]
            rfl
          exact List.ne_nil_of_mem (List.mem_filter.mpr ⟨by simp [Styles.all], hsingle⟩)
      · intro style hstyle d hd
        obtain rfl := List.mem_singleton.mp hd
        exact Style.holds_of_admits (List.mem_filter.mp hstyle).2

theorem Styles.Open.restrict {styles : Styles} {chunk : Text} (h : styles.Open chunk) {c : Char}
    (hc : styles.restrict c ≠ []) : (styles.restrict c).Open (c :: chunk) := by
  refine ⟨hc, ?_⟩
  intro style hstyle
  obtain ⟨hmem, hadmits⟩ := List.mem_filter.mp hstyle
  exact List.forall_mem_cons.mpr ⟨Style.holds_of_admits hadmits, h.holds style hmem⟩

/-- The chunk begun and those that follow add the characters of all of them.  The induction is on
the characters that are left; the styles stay open for the chunk begun. -/
theorem adds_writeChunks {styles : Styles} {chunk : Text} (h : styles.Open chunk)
    (hne : chunk ≠ []) (cs : Text) : Adds (writeChunks styles chunk cs) (chunk.reverse ++ cs) := by
  induction cs generalizing styles chunk with
  | nil =>
      rw [writeChunks, List.append_nil]
      exact (Styles.open_reverse h).adds (List.reverse_ne_nil_iff.mpr hne)
  | cons c cs ih =>
      unfold writeChunks
      split
      · have hfirst := (Styles.open_reverse h).adds (List.reverse_ne_nil_iff.mpr hne)
        exact hfirst.append (ih (Styles.start_open c) (List.cons_ne_nil c []))
      · next style more hrestrict =>
          have hopen := h.restrict (c := c) (by simp [hrestrict])
          rw [hrestrict] at hopen
          have hnext := ih hopen (List.cons_ne_nil c chunk)
          rwa [List.reverse_cons, List.append_assoc, List.singleton_append] at hnext

/-- **A quoted text adds itself.** -/
theorem adds_quoteWord {s word : Text} (h : quoteWord? s = some word) : Adds word s := by
  unfold quoteWord? at h
  split at h
  · cases h
  · cases s with
    | nil =>
        obtain rfl := Option.some.inj h
        intro begun rest
        simp [wordsFrom, isSeparator]
    | cons c cs =>
        obtain rfl := Option.some.inj h
        exact adds_writeChunks (Styles.start_open c) (List.cons_ne_nil c []) cs

/-- Only a NUL cannot be quoted. -/
theorem quoteWord?_eq_none_iff {s : Text} : quoteWord? s = none ↔ '\x00' ∈ s := by
  unfold quoteWord?
  split
  · next h => exact iff_of_true rfl h
  · next h => cases s <;> exact iff_of_false (by simp) h

/-! ### Commands -/

theorem words?_of_adds {piece s : Text} (h : Adds piece s) : words? piece = some [s] := by
  have hword := h none []
  rw [List.append_nil] at hword
  exact hword

theorem words?_cons {piece s : Text} (h : Adds piece s) (rest : Text) :
    words? (piece ++ ' ' :: rest) = (words? rest).map (s :: ·) := by
  unfold words?
  rw [h, wordsFrom_blank]
  rfl

/-- Pieces with blanks between them are the words that they add. -/
theorem words?_intercalate {pieces words : List Text} (h : List.Forall₂ Adds pieces words) :
    words? ([' '].intercalate pieces) = some words := by
  induction h with
  | nil => rfl
  | @cons piece s pieces words hpiece hrest ih =>
      cases hrest with
      | nil =>
          rw [List.intercalate_singleton]
          exact words?_of_adds hpiece
      | cons =>
          rw [List.intercalate_cons_cons, List.append_assoc, List.singleton_append,
            words?_cons hpiece, ih]
          rfl

end NinjaPlan.Shell
