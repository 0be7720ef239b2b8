import Mathlib.Data.List.Basic
import NinjaPlan.Options.Spelling

/-! # Command lines that spell settings

The reader of a command line is between two switches when nothing is awaited; what it has read is
then a draft, in which the last value may still have to be entered (`Reader.Between`).  However a
value is given to its switch, the reader goes from there to the draft with the value entered
(`Reader.exists_readAll_of_spelled`).

A draft holds for each switch the values that it has been given, or those of the default
(`Draft.Holds`).  Settings are known by the values that they hold (`eq_of_values`), so every command
line that spells settings is read as these, and all settings are spelled by some
(`parse_of_spells`). -/

namespace NinjaPlan.Options

/-! ### Names and letters -/

namespace Switch

theorem ofLong?_long (s : Switch) : ofLong? s.long = some s := by
  cases s <;> decide

theorem pieces_long (s : Switch) : Text.pieces '=' s.long = [s.long] := by
  cases s <;> decide

theorem long_ne_nil (s : Switch) : s.long ≠ [] := by
  cases s <;> decide

theorem eq_sign_not_mem_long (s : Switch) : '=' ∉ s.long := by
  cases s <;> decide

theorem ofShort?_short {s : Switch} {c : Char} (h : s.short = some c) : ofShort? c = some s := by
  cases s <;> cases h <;> decide

theorem short_ne_dash {s : Switch} {c : Char} (h : s.short = some c) : c ≠ '-' := by
  cases s <;> cases h <;> decide

end Switch

/-! ### Reading one switch -/

namespace Reader

variable {r : Reader} {d d' : Draft} {s : Switch} {value : Text} {args : List Text}

/-- The reader stands between two switches, and what it has read makes the draft. -/
structure Between (r : Reader) (d : Draft) : Prop where
  opened : r.closed = false
  settled : r.settle = .ok d

theorem Between.read_eq (h : r.Between d) (arg : Text) : r.read arg = r.readPlain arg := by
  obtain ⟨draft, pending, closed⟩ := r
  obtain rfl : closed = false := h.opened
  cases pending with
  | awaiting s => cases h.settled
  | nothing | holding => rfl

theorem Between.enter (h : r.Between d) (henter : d.enter s value = .ok d') :
    ∃ r', r.enter s value = .ok r' ∧ r'.Between d' := by
  refine ⟨{ r with draft := d', pending := .nothing }, ?_, h.opened, rfl⟩
  unfold Reader.enter
  rw [h.settled]
  show (d.enter s value >>= fun draft => pure { r with draft := draft, pending := .nothing }) = _
  rw [henter]
  rfl

theorem readPlain_long (r : Reader) (s : Switch) :
    r.readPlain ("--" ++ s.long) = if s.takesValue then r.await s else r.enter s [] := by
  obtain ⟨c, name, hname⟩ := List.exists_cons_of_ne_nil s.long_ne_nil
  have hlong : r.readLong s.long none = if s.takesValue then r.await s else r.enter s [] := by
    simp only [readLong, Switch.ofLong?_long]
  have hpieces := s.pieces_long
  rw [← hlong]
  rw [hname] at hpieces ⊢
  show r.readPlain ('-' :: '-' :: c :: name) = _
  simp only [readPlain, hpieces]

/-- The value of a long switch stands behind the first sign. -/
theorem readPlain_longAttached (r : Reader) (hvalue : s.takesValue = true) (value : Text) :
    r.readPlain ("--" ++ s.long ++ '=' :: value) = r.enter s value := by
  obtain ⟨c, name, hname⟩ := List.exists_cons_of_ne_nil s.long_ne_nil
  obtain ⟨piece, pieces, hmore⟩ := List.exists_cons_of_ne_nil (Text.pieces_ne_nil '=' value)
  have hlong : r.readLong s.long (some value) = r.enter s value := by
    simp only [readLong, Switch.ofLong?_long, hvalue, if_true]
  have hpieces := Text.pieces_append_cons s.eq_sign_not_mem_long value
  have hdrop : (s.long ++ '=' :: value).drop (s.long.length + 1) = value := by
    rw [← List.drop_drop, List.drop_left]
    rfl
  rw [hmore] at hpieces
  rw [← hlong]
  rw [hname] at hpieces hdrop ⊢
  show r.readPlain ('-' :: '-' :: c :: (name ++ '=' :: value)) = _
  rw [List.cons_append] at hpieces hdrop
  simp only [readPlain, hpieces, hdrop]

theorem readPlain_letters (r : Reader) {c : Char} (hc : c ≠ '-') (rest : Text) :
    r.readPlain ('-' :: c :: rest) = r.readLetters (c :: rest) := by
  unfold readPlain
  split
  · next h => exact absurd (List.cons.inj (List.cons.inj h).2).1 hc
  · next h => exact absurd (List.cons.inj (List.cons.inj h).2).1 hc
  · next h =>
      obtain ⟨rfl, rfl⟩ := List.cons.inj (List.cons.inj h).2
      rfl
  · next h => exact absurd rfl (h c rest)

/-- So does a letter that stands alone. -/
theorem readPlain_short (r : Reader) {c : Char} (hshort : s.short = some c) :
    r.readPlain ['-', c] = if s.takesValue then r.await s else r.enter s [] := by
  rw [readPlain_letters r (Switch.short_ne_dash hshort)]
  simp only [readLetters, Switch.ofShort?_short hshort]
  cases r.enter s [] <;> rfl

theorem readPlain_shortAttached (r : Reader) (hvalue : s.takesValue = true) {c : Char}
    (hshort : s.short = some c) (d : Char) (rest : Text) :
    r.readPlain ('-' :: c :: d :: rest) = r.enter s (if d = '=' then rest else d :: rest) := by
  rw [readPlain_letters r (Switch.short_ne_dash hshort)]
  simp only [readLetters, Switch.ofShort?_short hshort, hvalue, if_true]

/-- A value that may stand alone is held until the next switch. -/
theorem readAll_separate (h : r.Between d) {arg : Text} (harg : r.readPlain arg = r.await s)
    (hvalue : s.Separable value) :
    r.readAll [arg, value] =
      .ok { r with draft := d, pending := .holding s value } := by
  have hawait : r.await s = .ok { r with draft := d, pending := .awaiting s } := by
    unfold await
    rw [h.settled]
    rfl
  have hread : Reader.read { r with draft := d, pending := .awaiting s } value =
      .ok { r with draft := d, pending := .holding s value } := by
    unfold Reader.read
    rw [if_neg (by simp [h.opened])]
    dsimp only
    by_cases hdashes : s.takesDashes = true
    · rw [if_pos hdashes]
    · rw [if_neg hdashes]
      -- Without a dash in front, or with nothing behind it, an argument can only be a value.
      rcases hvalue with rfl | hvalue | hvalue
      · rfl
      · unfold readPlain
        split <;> simp_all
      · exact absurd hvalue hdashes
  rw [readAll, h.read_eq, harg, hawait]
  show (Reader.read { r with draft := d, pending := .awaiting s } value >>= _) = _
  rw [hread]
  rfl

/-- **One switch.**  However a value is given, the reader comes to have it entered. -/
theorem exists_readAll_of_spelled (h : r.Between d) (hspelled : s.Spelled value args)
    (henter : d.enter s value = .ok d') :
    ∃ r', r.readAll args = .ok r' ∧ r'.Between d' := by
  have hone : ∀ arg, r.readPlain arg = r.enter s value →
      ∃ r', r.readAll [arg] = .ok r' ∧ r'.Between d' := by
    intro arg harg
    obtain ⟨r', hr', hbetween⟩ := h.enter henter
    refine ⟨r', ?_, hbetween⟩
    rw [readAll, h.read_eq, harg, hr']
    rfl
  have htwo : ∀ arg, r.readPlain arg = r.await s → s.Separable value →
      ∃ r', r.readAll [arg, value] = .ok r' ∧ r'.Between d' := fun arg harg hvalue =>
    ⟨_, readAll_separate h harg hvalue, h.opened, henter⟩
  cases hspelled with
  | longFlag hflag => exact hone _ (by rw [readPlain_long, hflag]; rfl)
  | shortFlag hflag hshort => exact hone _ (by rw [readPlain_short r hshort, hflag]; rfl)
  | longAttached hvalue => exact hone _ (readPlain_longAttached r hvalue value)
  | longSeparate hvalue hseparable =>
      exact htwo _ (by rw [readPlain_long, if_pos hvalue]) hseparable
  | shortAttached hvalue hshort hne hsign =>
      obtain ⟨d, rest, rfl⟩ := List.exists_cons_of_ne_nil hne
      have hd : d ≠ '=' := fun hd => hsign (congrArg some hd)
      exact hone _ (by rw [readPlain_shortAttached r hvalue hshort, if_neg hd])
  | shortEquals hvalue hshort hne =>
      exact hone _ (by rw [readPlain_shortAttached r hvalue hshort, if_pos rfl])
  | shortSeparate hvalue hshort hseparable =>
      exact htwo _ (by rw [readPlain_short r hshort, if_pos hvalue]) hseparable

theorem readAll_append (r : Reader) (args more : List Text) :
    r.readAll (args ++ more) = r.readAll args >>= fun r' => r'.readAll more := by
  induction args generalizing r with
  | nil => rfl
  | cons arg args ih =>
      rw [List.cons_append, readAll, readAll]
      cases r.read arg with
      | error e => rfl
      | ok r' => exact ih r'

end Reader

/-! ### Entering one switch -/

/-- The values that a switch is given, or those of the default. -/
def valuesTold (given : List Given) (s : Switch) : List Text :=
  if valuesGiven given s = [] then ({} : Options).values s else valuesGiven given s

theorem valuesGiven_concat (given : List Given) (g : Given) (s : Switch) :
    valuesGiven (given ++ [g]) s =
      valuesGiven given s ++ if g.switch = s then [g.value] else [] := by
  unfold valuesGiven
  rw [List.filter_append, List.map_append]
  by_cases h : g.switch = s <;> simp [h]

/-- What is given can be entered: it asks for a run, and nothing that can be given once only is
given again. -/
structure Enterable (given : List Given) : Prop where
  asksRun : ∀ g ∈ given, g.switch ≠ .help ∧ g.switch ≠ .version
  flags : ∀ g ∈ given, g.switch.takesValue = false → g.value = []
  root : ∀ g ∈ given, g.switch = .root → g.value ≠ []
  once : ∀ s : Switch, s.repeats = false → (valuesGiven given s).length ≤ 1

theorem Enterable.of_append {given more : List Given} (h : Enterable (given ++ more)) :
    Enterable given where
  asksRun g hg := h.asksRun g (List.mem_append_left _ hg)
  flags g hg := h.flags g (List.mem_append_left _ hg)
  root g hg := h.root g (List.mem_append_left _ hg)
  once s hs := by
    have honce := h.once s hs
    rw [valuesGiven, List.filter_append, List.map_append, List.length_append] at honce
    exact Nat.le_of_add_right_le honce

theorem Enterable.repeats {given : List Given} {g : Given} (h : Enterable (given ++ [g]))
    (hgiven : valuesGiven given g.switch ≠ []) : g.switch.repeats = true := by
  by_contra hnot
  have honce := h.once g.switch (Bool.eq_false_iff.mpr hnot)
  rw [valuesGiven_concat, if_pos rfl, List.length_append, List.length_singleton] at honce
  exact hgiven (List.length_eq_zero_iff.mp (by omega))

namespace Draft

variable {d : Draft} {s : Switch} {value : Text} {done : List Given}

/-- The draft knows what has been given, and holds it instead of the default. -/
structure Holds (d : Draft) (given : List Given) : Prop where
  given_iff : ∀ s, s ∈ d.given ↔ valuesGiven given s ≠ []
  values_eq : ∀ s, d.options.values s = valuesTold given s

theorem holds_start : ({} : Draft).Holds [] where
  given_iff s := by simp [valuesGiven]
  values_eq s := rfl

theorem values_assign_of_ne (d : Draft) (value : Text) {s' : Switch} (h : s' ≠ s) :
    (d.assign s value).values s' = d.options.values s' := by
  cases s <;> cases s' <;> first | rfl | exact absurd rfl h

/-- A value is put behind those of the switch that were given before. -/
theorem values_assign_self (hrun : s ≠ .help ∧ s ≠ .version)
    (hflag : s.takesValue = false → value = [])
    (hrepeats : s ∈ d.given → s.repeats = true)
    (hpackage : s = .package → s ∉ d.given → d.options.packages = []) :
    (d.assign s value).values s = (if s ∈ d.given then d.options.values s else []) ++ [value] := by
  by_cases hs : s ∈ d.given
  · -- Only packages and extensions are given again.
    have hrep := hrepeats hs
    cases s with
    | package | extension => simp [assign, values, hs]
    | _ => cases hrep
  · rw [if_neg hs, List.nil_append]
    cases s with
    | help => exact absurd rfl hrun.1
    | version => exact absurd rfl hrun.2
    | release | stdout | verbose => simp [assign, values, presence, hflag rfl]
    | package => simp [assign, values, hpackage rfl hs]
    | extension => simp [assign, values, hs]
    | _ => rfl

theorem Holds.valuesGiven_eq_nil (h : d.Holds done) (hs : s ∉ d.given) :
    valuesGiven done s = [] :=
  not_ne_iff.mp (mt (h.given_iff s).mpr hs)

theorem Holds.given_values (h : d.Holds done) (s : Switch) :
    (if s ∈ d.given then d.options.values s else []) = valuesGiven done s := by
  by_cases hs : s ∈ d.given
  · rw [if_pos hs, h.values_eq, valuesTold, if_neg ((h.given_iff s).mp hs)]
  · rw [if_neg hs, h.valuesGiven_eq_nil hs]

theorem Holds.values_assign (h : d.Holds done) {g : Given} (hall : Enterable (done ++ [g]))
    (s : Switch) :
    (d.assign g.switch g.value).values s = valuesTold (done ++ [g]) s := by
  have hg : g ∈ done ++ [g] := List.mem_append_right _ List.mem_cons_self
  unfold valuesTold
  rw [valuesGiven_concat]
  by_cases hs : g.switch = s
  · subst hs
    have hpackage : g.switch = .package → g.switch ∉ d.given → d.options.packages = [] := by
      intro hswitch hnew
      have hvalues := h.values_eq g.switch
      rw [valuesTold, if_pos (h.valuesGiven_eq_nil hnew), hswitch] at hvalues
      exact hvalues
    have hne : valuesGiven done g.switch ++ [g.value] ≠ [] := by simp
    rw [values_assign_self (hall.asksRun g hg) (hall.flags g hg)
      (fun hgiven => hall.repeats ((h.given_iff _).mp hgiven)) hpackage, h.given_values]
    simp only [if_true, if_neg hne]
  · rw [values_assign_of_ne d g.value (Ne.symm hs), if_neg hs, List.append_nil, h.values_eq,
      valuesTold]

/-- **One value.**  Entering it makes the draft hold it. -/
theorem Holds.enter (h : d.Holds done) {g : Given} (hall : Enterable (done ++ [g])) :
    ∃ d', d.enter g.switch g.value = .ok d' ∧ d'.Holds (done ++ [g]) := by
  have hg : g ∈ done ++ [g] := List.mem_append_right _ List.mem_cons_self
  have hrun := hall.asksRun g hg
  refine ⟨⟨d.assign g.switch g.value, g.switch :: d.given⟩, ?_, ?_, h.values_assign hall⟩
  · unfold Draft.enter
    rw [if_neg hrun.1, if_neg hrun.2, if_neg, if_neg]
    · rintro ⟨hroot, hempty⟩
      exact hall.root g hg hroot hempty
    · rintro ⟨hgiven, hsingle⟩
      have hrepeats := hall.repeats ((h.given_iff _).mp hgiven)
      rw [hsingle] at hrepeats
      cases hrepeats
  · intro s
    rw [List.mem_cons, h.given_iff, valuesGiven_concat]
    by_cases hs : g.switch = s
    · simp [hs]
    · simp [hs, Ne.symm hs]

end Draft

/-! ### Reading all of them -/

/-- **A whole command line.**  The reader comes to a draft that holds all that was given. -/
theorem Reader.exists_readAll (done rest : List Given) {r : Reader} {d : Draft}
    (hall : Enterable (done ++ rest)) (hspelled : ∀ g ∈ rest, g.switch.Spelled g.value g.args)
    (h : r.Between d) (hd : d.Holds done) :
    ∃ r' d', r.readAll (rest.flatMap Given.args) = .ok r' ∧ r'.Between d' ∧
      d'.Holds (done ++ rest) := by
  induction rest generalizing done r d with
  | nil => exact ⟨r, d, rfl, h, by rwa [List.append_nil]⟩
  | cons g rest ih =>
      rw [List.append_cons] at hall ⊢
      obtain ⟨hg, hrest⟩ := List.forall_mem_cons.mp hspelled
      obtain ⟨d', henter, hd'⟩ := hd.enter hall.of_append
      obtain ⟨r', hread, hr'⟩ := exists_readAll_of_spelled h hg henter
      obtain ⟨r'', d'', hreads, hr'', hd''⟩ := ih (done ++ [g]) hall hrest hr' hd'
      refine ⟨r'', d'', ?_, hr'', hd''⟩
      rw [List.flatMap_cons, readAll_append, hread]
      exact hreads

/-! ### Settings and their values -/

theorem presence_inj {b c : Bool} (h : presence b = presence c) : b = c := by
  cases b <;> cases c <;> first | rfl | cases h

theorem eq_of_values {o o' : Options} (h : ∀ s, o.values s = o'.values s) : o = o' := by
  have hone : ∀ {v w : Text}, [v] = [w] → v = w := fun hvw => (List.cons.inj hvw).1
  have hoption : ∀ {v w : Option Text}, v.toList = w.toList → v = w := fun hvw => by
    simpa using congrArg List.head? hvw
  obtain ⟨⟩ := o
  obtain ⟨⟩ := o'
  rw [Options.mk.injEq]
  exact ⟨hoption (h .root), presence_inj (h .release), hone (h .compiler),
    hoption (h .compileFlags), hone (h .depFlags), hone (h .linker),
    hoption (h .linkFlags), h .package, hone (h .sourceDir), hone (h .testDir),
    hone (h .name), hone (h .testName), hone (h .entryPoint), h .extension,
    hoption (h .objectDir), presence_inj (h .stdout), presence_inj (h .verbose)⟩

section values

variable {o : Options} {given : List Given}

theorem length_values_le (o : Options) {s : Switch} (h : s.repeats = false) :
    (o.values s).length ≤ 1 := by
  have hpresence : ∀ b, (presence b).length ≤ 1 := by decide
  have hoption : ∀ v : Option Text, v.toList.length ≤ 1 := fun v => by cases v <;> simp
  cases s with
  | package | extension => cases h
  | root | compileFlags | linkFlags | objectDir => exact hoption _
  | release | stdout | verbose => exact hpresence _
  | help | version => exact Nat.zero_le 1
  | _ => exact Nat.le_refl 1

theorem values_eq_nil (hext : o.extensions ≠ []) {s : Switch} (h : o.values s = []) :
    ({} : Options).values s = [] := by
  cases s with
  | extension => exact absurd h hext
  | compiler | depFlags | linker | sourceDir | testDir | name | testName | entryPoint => cases h
  | _ => rfl

theorem eq_nil_of_mem_values {s : Switch} (hflag : s.takesValue = false) {value : Text}
    (h : value ∈ o.values s) : value = [] := by
  have hpresence : ∀ {b}, value ∈ presence b → value = [] := by
    rintro (_ | _) hb
    · cases hb
    · exact List.mem_singleton.mp hb
  cases s with
  | release | stdout | verbose => exact hpresence h
  | help | version => cases h
  | _ => cases hflag

variable (htold : ∀ s, valuesGiven given s = o.values s ∨
  valuesGiven given s = [] ∧ o.values s = ({} : Options).values s)
include htold

/-- What spells settings gives no more than these hold. -/
theorem mem_values_of_given {g : Given} (hg : g ∈ given) : g.value ∈ o.values g.switch := by
  have hmem : g.value ∈ valuesGiven given g.switch :=
    List.mem_map.mpr ⟨g, List.mem_filter.mpr ⟨hg, decide_eq_true rfl⟩, rfl⟩
  rcases htold g.switch with hall | ⟨hnone, -⟩
  · rwa [← hall]
  · rw [hnone] at hmem
    cases hmem

theorem enterable_of_told (hroot : o.root ≠ some []) : Enterable given where
  asksRun g hg := by
    have hvalue := mem_values_of_given htold hg
    constructor <;>
      · intro hs
        rw [hs] at hvalue
        cases hvalue
  flags g hg hflag := eq_nil_of_mem_values hflag (mem_values_of_given htold hg)
  root g hg hs hempty := by
    have hvalue := mem_values_of_given htold hg
    rw [hs, hempty] at hvalue
    exact hroot (Option.mem_toList.mp hvalue)
  once s hs := by
    rcases htold s with hall | ⟨hnone, -⟩
    · rw [hall]
      exact o.length_values_le hs
    · rw [hnone]
      exact Nat.zero_le 1

theorem valuesTold_eq (hext : o.extensions ≠ []) (s : Switch) :
    valuesTold given s = o.values s := by
  unfold valuesTold
  rcases htold s with hall | ⟨hnone, hdefault⟩
  · rw [hall]
    split_ifs with hempty
    · rw [values_eq_nil hext hempty, hempty]
    · rfl
  · rw [if_pos hnone, hdefault]

end values

/-! ### Spelling settings out -/

/-- A switch given with a value that is attached to it, or without one. -/
def Given.attached (s : Switch) (value : Text) : Given where
  switch := s
  value := value
  args := [if s.takesValue then "--" ++ s.long ++ '=' :: value else "--" ++ s.long]

def allGiven (o : Options) : List Given :=
  Switch.all.flatMap fun s => (o.values s).map (Given.attached s)

/-- A command line for the settings. -/
def spelling (o : Options) : List Text := o.allGiven.flatMap Given.args

theorem valuesGiven_allGiven (o : Options) (s : Switch) :
    valuesGiven o.allGiven s = o.values s := by
  have hone : ∀ s', valuesGiven ((o.values s').map (Given.attached s')) s =
      if s' = s then o.values s' else [] := by
    intro s'
    by_cases hs : s' = s <;>
      simp [valuesGiven, List.filter_map, Function.comp_def, Given.attached, hs]
  have hall : valuesGiven o.allGiven s =
      Switch.all.flatMap fun s' => if s' = s then o.values s' else [] := by
    rw [← funext hone]
    simp [valuesGiven, allGiven, List.filter_flatMap, List.map_flatMap]
  rw [hall]
  cases s <;> simp [Switch.all]

theorem spells_spelling (o : Options) : o.Spells o.spelling := by
  refine ⟨o.allGiven, fun g hg => ?_, rfl, fun s => Or.inl (o.valuesGiven_allGiven s)⟩
  obtain ⟨s, -, hs⟩ := List.mem_flatMap.mp hg
  obtain ⟨value, hvalue, rfl⟩ := List.mem_map.mp hs
  unfold Given.attached
  dsimp only
  split_ifs with htakes
  · exact .longAttached htakes
  · have hflag := Bool.eq_false_iff.mpr htakes
    rw [eq_nil_of_mem_values hflag hvalue]
    exact .longFlag hflag

/-- **Command lines are read as what they spell.**  All settings with a root that is absent or not
empty, and with extensions, have a command line, and every command line that spells them is read
without a fault and gives them back. -/
theorem parse_of_spells (o : Options) (hroot : o.root ≠ some []) (hext : o.extensions ≠ []) :
    o.Spells o.spelling ∧ ∀ args, o.Spells args → parse args = .ok o := by
  refine ⟨o.spells_spelling, ?_⟩
  rintro args ⟨given, hspelled, rfl, htold⟩
  have hstart : Reader.Between {} {} := ⟨rfl, rfl⟩
  obtain ⟨r, d, hread, hbetween, hholds⟩ := Reader.exists_readAll [] given
    (enterable_of_told htold hroot) hspelled hstart Draft.holds_start
  have hoptions : d.options = o := eq_of_values fun s =>
    (hholds.values_eq s).trans (valuesTold_eq htold hext s)
  unfold parse
  rw [hread]
  show (r.settle >>= fun draft => pure draft.options) = _
  rw [hbetween.settled, ← hoptions]
  rfl

/-- Settings with values that look like something else. -/
def disguisedOptions : Options where
  root := some "-"
  compileFlags := some "-O2 -g"
  depFlags := "--"
  linker := ""
  packages := ["a b", "z"]
  name := "=x"
  extensions := ["cc", "hpp"]
  objectDir := some ""
  verbose := true

/-- The switches of a command line for them. -/
def disguisedGiven : List Given := [⟨.package, "a b", ["-p", "a b"]⟩, ⟨.linker, "", ["--ld="]⟩,
  ⟨.compileFlags, "-O2 -g", ["-C", "-O2 -g"]⟩, ⟨.verbose, "", ["-v"]⟩,
  ⟨.extension, "cc", ["--ext", "cc"]⟩, ⟨.package, "z", ["-pz"]⟩, ⟨.name, "=x", ["-n==x"]⟩,
  ⟨.extension, "hpp", ["--ext=hpp"]⟩, ⟨.depFlags, "--", ["--depflags", "--"]⟩,
  ⟨.root, "-", ["--root", "-"]⟩, ⟨.objectDir, "", ["--obj-dir="]⟩]

/-- A value that follows its switch may be two dashes, or one, and an attached one may begin with a
sign. -/
theorem parse_of_spells_disguised :
    disguisedOptions.Spells ["-p", "a b", "--ld=", "-C", "-O2 -g", "-v", "--ext", "cc", "-pz",
        "-n==x", "--ext=hpp", "--depflags", "--", "--root", "-", "--obj-dir="] ∧
      parse ["-p", "a b", "--ld=", "-C", "-O2 -g", "-v", "--ext", "cc", "-pz", "-n==x", "--ext=hpp",
        "--depflags", "--", "--root", "-", "--obj-dir="] = .ok disguisedOptions := by
  have hspells : disguisedOptions.Spells ["-p", "a b", "--ld=", "-C", "-O2 -g", "-v", "--ext", "cc",
      "-pz", "-n==x", "--ext=hpp", "--depflags", "--", "--root", "-", "--obj-dir="] := by
    refine ⟨disguisedGiven, ?_, rfl, fun s => by cases s <;> decide⟩
    have hplain : ∀ s : Switch, ∀ c : Char, c ≠ '-' → ∀ v, s.Separable (c :: v) :=
      fun s c hc v => .inr (.inl fun h => hc (Option.some.inj h))
    simp only [disguisedGiven, List.forall_mem_cons, List.not_mem_nil, false_implies, implies_true,
      and_true]
    exact ⟨.shortSeparate rfl rfl (hplain _ _ (by decide) _), .longAttached rfl,
      .shortSeparate rfl rfl (.inr (.inr rfl)), .shortFlag rfl rfl,
      .longSeparate rfl (hplain _ _ (by decide) _), .shortAttached rfl rfl (by decide) (by decide),
      .shortEquals rfl rfl (by decide), .longAttached rfl, .longSeparate rfl (.inr (.inr rfl)),
      .longSeparate rfl (.inl rfl), .longAttached rfl⟩
  exact ⟨hspells, (parse_of_spells disguisedOptions (by decide) (by decide)).2 _ hspells⟩

end NinjaPlan.Options
