import NinjaPlan.BuildFile.Read

/-! # Paths in statements

What escaping writes, a reader of paths gives back: `takePath_escaped` for one path with
whatever stops it behind it, `takePaths_escapedAll` for a list of paths up to the end of the line.
Both hold in every syntax that knows the three escapes, as far as the paths have no other
character that ends one (`PathSyntax.Expresses`). -/

namespace NinjaPlan.BuildFile

/-- A computation that gives a result gives one for its first step. -/
theorem bind_eq_ok_iff {ε α β : Type} {x : Except ε α} {f : α → Except ε β} {b : β} :
    x >>= f = .ok b ↔ ∃ a, x = .ok a ∧ f a = .ok b := by
  cases x with
  | error e => simp [bind, Except.bind]
  | ok a => simp [bind, Except.bind]

/-! ### Writing -/

/-- The text of a path as it is written. -/
def escaped (s : Text) : Text := s.flatMap escapeChar

@[simp] theorem escaped_cons (c : Char) (s : Text) :
    escaped (c :: s) = escapeChar c ++ escaped s := rfl

theorem escaped_ne_nil {s : Text} (h : s ≠ []) : escaped s ≠ [] := by
  obtain ⟨c, t, rfl⟩ := List.exists_cons_of_ne_nil h
  rw [escaped_cons]
  unfold escapeChar
  split <;> simp

/-- Escaping makes no line break. -/
theorem newline_mem_escaped_iff {s : Text} : '\n' ∈ escaped s ↔ '\n' ∈ s := by
  have hchar : ∀ c, '\n' ∈ escapeChar c ↔ '\n' = c := by
    intro c
    unfold escapeChar
    split <;> simp
  simp [escaped, List.mem_flatMap, hchar]

theorem newline_not_mem_of_hasLineBreak {s : Text} (h : Text.hasLineBreak s = false) :
    '\n' ∉ s := by
  unfold Text.hasLineBreak at h
  intro hmem
  have hc := List.any_eq_false.mp h '\n' hmem
  simp at hc

theorem escapePath_eq_ok_iff {p : Path} {word : Text} :
    escapePath p = .ok word ↔ Text.hasLineBreak p.text = false ∧ word = escaped p.text := by
  unfold escapePath
  cases hb : Text.hasLineBreak p.text with
  | true => simp
  | false =>
      simp only [Bool.false_eq_true, if_false, Except.ok.injEq, true_and]
      exact eq_comm

theorem escapePath_ok {p : Path} {word : Text} (h : escapePath p = .ok word) :
    word = escaped p.text ∧ '\n' ∉ p.text := by
  obtain ⟨hbreak, hword⟩ := escapePath_eq_ok_iff.mp h
  exact ⟨hword, newline_not_mem_of_hasLineBreak hbreak⟩

theorem escapePaths_ok {ps : List Path} {words : List Text} (h : escapePaths ps = .ok words) :
    words = ps.map (fun p => escaped p.text) ∧ ∀ p ∈ ps, '\n' ∉ p.text := by
  induction ps generalizing words with
  | nil =>
      obtain rfl : [] = words := Except.ok.inj h
      simp
  | cons p ps ih =>
      obtain ⟨word, hword, h⟩ := bind_eq_ok_iff.mp h
      obtain ⟨others, hothers, h⟩ := bind_eq_ok_iff.mp h
      obtain rfl : word :: others = words := Except.ok.inj h
      obtain ⟨rfl, hn⟩ := escapePath_ok hword
      obtain ⟨rfl, hns⟩ := ih hothers
      exact ⟨rfl, List.forall_mem_cons.mpr ⟨hn, hns⟩⟩

/-! ### Reading -/

/-- A syntax that knows the escapes, and in which nothing else can come behind a path. -/
structure PathSyntax.KnowsEscapes (σ : PathSyntax) : Prop where
  escapes : ∀ c, needsEscape c = true → σ.escapes c = true
  space : σ.ends ' ' = true
  colon : σ.ends ':' = true

/-- A path that can be written in the syntax: it is not empty where it must not be, and only
characters that are escaped could end it. -/
def PathSyntax.Expresses (σ : PathSyntax) (s : Text) : Prop :=
  (s = [] → σ.allowsEmpty = true) ∧ ∀ c ∈ s, σ.ends c = true → needsEscape c = true

theorem PathSyntax.lenient_knowsEscapes : PathSyntax.lenient.KnowsEscapes :=
  ⟨fun _ _ => rfl, rfl, rfl⟩

theorem PathSyntax.lenient_expresses (s : Text) : PathSyntax.lenient.Expresses s := by
  refine ⟨fun _ => rfl, ?_⟩
  intro c _ hends
  have hends : (c == ' ' || c == ':') = true := hends
  unfold needsEscape
  rw [Bool.or_assoc, hends, Bool.or_true]

section read

variable {σ : PathSyntax} {c : Char} {s rest : Text}

theorem takePathChars_dollar (h : σ.escapes c = true) : takePathChars σ ('$' :: c :: rest) =
    (takePathChars σ rest).map fun (path, after) => (c :: path, after) := by
  rw [takePathChars, if_pos h]

theorem takePathChars_plain (hc : c ≠ '$') (h : σ.ends c = false) : takePathChars σ (c :: rest) =
    (takePathChars σ rest).map fun (path, after) => (c :: path, after) := by
  rw [takePathChars, if_neg (by rw [h]; exact Bool.false_ne_true)] <;> simp [hc]

theorem takePathChars_end (hc : c ≠ '$') (h : σ.ends c = true) :
    takePathChars σ (c :: rest) = some ([], c :: rest) := by
  rw [takePathChars, if_pos h] <;> simp [hc]

/-- The text behind a path is empty or goes on with a space or a colon. -/
def Stops (rest : Text) : Prop := ∀ c ∈ rest.head?, c = ' ' ∨ c = ':'

theorem takePathChars_stops (hσ : σ.KnowsEscapes) (h : Stops rest) :
    takePathChars σ rest = some ([], rest) := by
  cases rest with
  | nil => rfl
  | cons c rest =>
      rcases h c rfl with rfl | rfl
      · exact takePathChars_end (by decide) hσ.space
      · exact takePathChars_end (by decide) hσ.colon

theorem takePathChars_escaped (hσ : σ.KnowsEscapes)
    (hs : ∀ c ∈ s, σ.ends c = true → needsEscape c = true) (hrest : Stops rest) :
    takePathChars σ (escaped s ++ rest) = some (s, rest) := by
  induction s with
  | nil => exact takePathChars_stops hσ hrest
  | cons c s ih =>
      have ih := ih fun d hd => hs d (List.mem_cons_of_mem _ hd)
      rw [escaped_cons, List.append_assoc]
      cases hc : needsEscape c with
      | true =>
          rw [escapeChar, if_pos hc]
          simp only [List.cons_append, List.nil_append]
          rw [takePathChars_dollar (hσ.escapes c hc), ih]
          rfl
      | false =>
          have hdollar : c ≠ '$' := by
            rintro rfl
            cases hc
          have hends : σ.ends c = false := by
            cases he : σ.ends c with
            | false => rfl
            | true => rw [← hc, hs c List.mem_cons_self he]
          rw [escapeChar, if_neg (by rw [hc]; exact Bool.false_ne_true)]
          simp only [List.cons_append, List.nil_append]
          rw [takePathChars_plain hdollar hends, ih]
          rfl

/-- A path that was written is read back, and nothing behind it. -/
theorem takePath_escaped (hσ : σ.KnowsEscapes) (hs : σ.Expresses s) (hrest : Stops rest) :
    takePath σ (escaped s ++ rest) = some (s, rest) := by
  unfold takePath
  rw [takePathChars_escaped hσ hs.2 hrest]
  have hempty : (s.isEmpty && !σ.allowsEmpty) = false := by
    cases s with
    | nil => simp [hs.1 rfl]
    | cons c s => rfl
  simp only [hempty, Bool.false_eq_true, if_false]

/-- Paths as they are written behind the name of a rule. -/
def escapedAll (paths : List Text) : Text := paths.flatMap fun s => ' ' :: escaped s

@[simp] theorem escapedAll_cons (paths : List Text) :
    escapedAll (s :: paths) = ' ' :: (escaped s ++ escapedAll paths) := rfl

theorem stops_escapedAll (paths : List Text) : Stops (escapedAll paths) := by
  intro c hc
  cases paths with
  | nil => cases hc
  | cons s paths => exact Or.inl (Option.some.inj hc).symm

theorem length_le_length_escapedAll (paths : List Text) :
    paths.length ≤ (escapedAll paths).length := by
  induction paths with
  | nil => exact Nat.zero_le _
  | cons s paths ih =>
      rw [escapedAll_cons]
      simp only [List.length_cons, List.length_append]
      omega

theorem takePaths_of_length_le (hσ : σ.KnowsEscapes) {paths : List Text} {fuel : Nat}
    (hs : ∀ s ∈ paths, σ.Expresses s) (hfuel : paths.length ≤ fuel) :
    takePaths σ fuel (escapedAll paths) = some paths := by
  induction paths generalizing fuel with
  | nil => cases fuel <;> rfl
  | cons s paths ih =>
      obtain ⟨n, rfl⟩ : ∃ n, fuel = n + 1 := Nat.exists_eq_add_one.mpr (by simp at hfuel; omega)
      have hfirst := takePath_escaped hσ (hs s List.mem_cons_self) (stops_escapedAll paths)
      have hothers := ih (fun t ht => hs t (List.mem_cons_of_mem _ ht))
        (Nat.le_of_succ_le_succ hfuel)
      rw [escapedAll_cons, takePaths, if_pos rfl, hfirst]
      simp only [Option.bind_eq_bind, Option.bind_some, hothers]
      rfl

/-- Paths that were written are read back in order. -/
theorem takePaths_escapedAll (hσ : σ.KnowsEscapes) {paths : List Text}
    (hs : ∀ s ∈ paths, σ.Expresses s) :
    takePaths σ (escapedAll paths).length (escapedAll paths) = some paths :=
  takePaths_of_length_le hσ hs (length_le_length_escapedAll paths)

end read

end NinjaPlan.BuildFile
