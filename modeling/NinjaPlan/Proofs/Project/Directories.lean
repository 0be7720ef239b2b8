import NinjaPlan.Options.Parse
import NinjaPlan.Proofs.Flags.Literal
import NinjaPlan.Proofs.Path.Normal
import NinjaPlan.Project.Generate

/-! # Where headers and sources are looked for

The compiler looks for headers in the directory whose path is the root, a slash and the source
directory (`Options.headerDirectory`).  The sources of the program are found in the root joined with
the normal form of the source directory (`sourceDirectory`).  A slash puts everything below the
root, but joining puts an absolute path in the place of the root.

So the two are one directory for every relative source directory.  An absolute one names two
directories, unless it climbs over the whole root first (`normalize_headerDirectory_iff`). -/

namespace NinjaPlan

namespace Path

/-- The path read from where one stands, also if it is absolute. -/
def fromHere (p : Path) : Path := ⟨'.' :: '/' :: p.text⟩

section fromHere

variable (p : Path)

theorem isAbsolute_fromHere : p.fromHere.isAbsolute = false := rfl

theorem inner_fromHere : p.fromHere.inner = p.inner := inner_append_slash ['.'] p.text

/-- Behind a slash any path is read from where one stands. -/
theorem components_append_slash {root : Path} (hroot : root.text ≠ []) :
    components ⟨root.text ++ '/' :: p.text⟩ = root.components ++ p.fromHere.inner := by
  rw [components_eq, opening_append_slash hroot, inner_append_slash, components_eq root,
    inner_fromHere, List.append_assoc]

theorem normalComponents_fromHere {p : Path} (h : p.isAbsolute = false) :
    p.fromHere.normalComponents = p.normalComponents := by
  rw [normalComponents, normalComponents, foldl_components_of_relative p.isAbsolute_fromHere,
    foldl_components_of_relative h, inner_fromHere]

/-- From the root an absolute path goes down the same names. -/
theorem descent_fromHere {p : Path} (h : p.isAbsolute = true) : p.fromHere.descent = p.descent := by
  have hslash : p.components = components ⟨['/']⟩ ++ p.fromHere.inner := by
    rw [components_of_absolute h, inner_fromHere]
    rfl
  obtain ⟨-, hdescent⟩ := descent_append rfl p.isAbsolute_fromHere hslash
  have hempty : descent ⟨['/']⟩ = [] := rfl
  rw [hdescent, hempty, List.rdrop_nil, List.nil_append]

end fromHere

theorem normalize_eq_iff_descent {p q : Path} (hp : p.isAbsolute = true)
    (hq : q.isAbsolute = true) : p.normalize = q.normalize ↔ p.descent = q.descent := by
  rw [normalize_eq_iff, normalComponents_of_absolute hp, normalComponents_of_absolute hq,
    List.cons_inj_right, List.map_inj_right fun _ _ h => Component.normal.inj h]

variable {root dir : Path}

theorem descent_append_slash (hroot : root.isAbsolute = true) (dir : Path) :
    isAbsolute ⟨root.text ++ '/' :: dir.text⟩ = true ∧
      descent ⟨root.text ++ '/' :: dir.text⟩ =
        root.descent.rdrop dir.fromHere.climb ++ dir.fromHere.descent :=
  descent_append hroot dir.isAbsolute_fromHere
    (dir.components_append_slash (text_ne_nil_of_isAbsolute hroot))

theorem descent_sourceDirectory_of_relative (hroot : root.isAbsolute = true)
    (hdir : dir.isAbsolute = false) :
    (sourceDirectory root dir).isAbsolute = true ∧ (sourceDirectory root dir).descent =
      root.descent.rdrop dir.fromHere.climb ++ dir.fromHere.descent := by
  have hnormal : dir.normalize.isAbsolute = false := dir.isAbsolute_normalize.trans hdir
  have hsame := normalComponents_fromHere hdir
  have hjoin := descent_append hroot hnormal
    (components_join (text_ne_nil_of_isAbsolute hroot) hnormal)
  have hclimb : dir.normalize.climb = dir.fromHere.climb := by
    rw [climb_normalize, climb, climb, hsame]
  have hdescent : dir.normalize.descent = dir.fromHere.descent := by
    rw [descent_normalize, descent, descent, hsame]
  rwa [hclimb, hdescent] at hjoin

theorem descent_sourceDirectory_of_absolute (root : Path) (hdir : dir.isAbsolute = true) :
    (sourceDirectory root dir).isAbsolute = true ∧
      (sourceDirectory root dir).descent = dir.fromHere.descent := by
  have hnormal : dir.normalize.isAbsolute = true := dir.isAbsolute_normalize.trans hdir
  rw [sourceDirectory, join_of_isAbsolute hnormal, descent_normalize, descent_fromHere hdir]
  exact ⟨hnormal, rfl⟩

/-- A slash and a join name one directory if the lower path is relative, or climbs over all names
of the root. -/
theorem normalize_append_slash_iff (hroot : root.isAbsolute = true) (dir : Path) :
    normalize ⟨root.text ++ '/' :: dir.text⟩ = (sourceDirectory root dir).normalize ↔
      dir.isAbsolute = false ∨ root.descent.length ≤ dir.fromHere.climb := by
  obtain ⟨habs, hslash⟩ := descent_append_slash hroot dir
  cases hdir : dir.isAbsolute with
  | false =>
      obtain ⟨hjoin, hdescent⟩ := descent_sourceDirectory_of_relative hroot hdir
      rw [normalize_eq_iff_descent habs hjoin, hslash, hdescent]
      simp
  | true =>
      obtain ⟨hjoin, hdescent⟩ := descent_sourceDirectory_of_absolute root hdir
      -- One of the paths has no name of the root, so the other must keep none.
      rw [normalize_eq_iff_descent habs hjoin, hslash, hdescent, List.append_left_eq_self,
        List.rdrop, List.take_eq_nil_iff]
      simp only [Bool.true_eq_false, false_or]
      have hempty : root.descent = [] → root.descent.length - dir.fromHere.climb = 0 := by
        intro h
        simp [h]
      rw [or_iff_left_of_imp hempty, Nat.sub_eq_zero_iff_le]

end Path

namespace Options

/-- The directory in which the compiler looks for headers. -/
def headerDirectory (o : Options) (root : Path) : Path :=
  ⟨(o.flagRequest (.ofOptions o root)).includePath⟩

/-- **One directory for headers and sources.**  Without an override for the compiler's flags, the
word that the compiler gets for its headers is that of the header directory, as soon as there are
flags.  It has the normal form of the directory that the program's sources are found in exactly if
the source directory is relative, or climbs over all names of the root. -/
theorem normalize_headerDirectory_iff (o : Options) (root : Path) (hover : o.compileFlags = none)
    (hroot : root.isAbsolute = true) :
    (∀ flags, (o.flagRequest (.ofOptions o root)).baseFlags = .ok flags →
      ∃ (command : Text) (words : List Text), BuildFile.readValue flags = command.map .char ∧
        Shell.words? command = some words ∧
        words[3]? = some (("-I" : Text) ++ (o.headerDirectory root).text)) ∧
    ∀ spec ∈ (Layout.ofOptions o root).targets, spec.kind = .primary →
      ((o.headerDirectory root).normalize = (sourceDirectory root spec.subdir).normalize ↔
        Path.isAbsolute ⟨o.sourceDir⟩ = false ∨
          root.descent.length ≤ (Path.fromHere ⟨o.sourceDir⟩).climb) := by
  refine ⟨fun flags hflags => ?_, fun spec hspec hkind => ?_⟩
  · obtain ⟨dir, hdir, rfl⟩ := FlagRequest.quoteWord_of_baseFlags hover hflags
    obtain ⟨command, hvalue, hwords⟩ := FlagRequest.exists_command _ hdir
    exact ⟨command, _, hvalue, hwords, rfl⟩
  · have hsubdir : spec.subdir = ⟨o.sourceDir⟩ := by
      rcases List.mem_pair.mp hspec with rfl | rfl
      · rfl
      · cases hkind
    rw [hsubdir]
    exact Path.normalize_append_slash_iff hroot ⟨o.sourceDir⟩

/-- A source directory that leaves the root and comes back. -/
def wanderingOptions : Options := { sourceDir := "a/../.././p//src/" }

theorem normalize_headerDirectory_wandering :
    Options.parse ["--src-dir=a/../.././p//src/"] = .ok wanderingOptions ∧
      wanderingOptions.compileFlags = none ∧ Path.isAbsolute "/p" = true ∧
      (wanderingOptions.headerDirectory "/p").text = ("/p/a/../.././p//src/" : Text) ∧
      sourceDirectory "/p" ⟨wanderingOptions.sourceDir⟩ = "/p/../p/src" ∧
      (wanderingOptions.headerDirectory "/p").normalize =
        (sourceDirectory "/p" ⟨wanderingOptions.sourceDir⟩).normalize := by
  have hiff := (wanderingOptions.normalize_headerDirectory_iff "/p" rfl rfl).2
    ⟨"app", ⟨wanderingOptions.sourceDir⟩, .primary⟩ (by decide) rfl
  exact ⟨rfl, rfl, rfl, rfl, rfl, hiff.mpr (.inl rfl)⟩

/-- An absolute source directory is put below the root for the compiler only. -/
theorem headerDirectory_of_absolute :
    ∃ o, Options.parse ["--src-dir=/q"] = .ok o ∧ o.compileFlags = none ∧
      (Path.isAbsolute "/p" = true ∧ Path.normalize "/p" = "/p") ∧
      (o.flagRequest (.ofOptions o "/p")).baseFlags =
        .ok "-Wall -Wextra -std=c++17 -I/p//q -fPIC -O0 -g -DDEBUG" ∧
      (o.headerDirectory "/p").text = ("/p//q" : Text) ∧
      ∀ spec ∈ (Layout.ofOptions o "/p").targets, spec.kind = .primary →
        sourceDirectory "/p" spec.subdir = "/q" ∧
          (o.headerDirectory "/p").normalize ≠ (sourceDirectory "/p" spec.subdir).normalize := by
  refine ⟨{ sourceDir := "/q" }, rfl, rfl, ⟨rfl, rfl⟩, rfl, rfl, ?_⟩
  decide

end Options
end NinjaPlan
