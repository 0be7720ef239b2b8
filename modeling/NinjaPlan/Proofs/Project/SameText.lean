import NinjaPlan.Proofs.BuildFile.ReadBack
import NinjaPlan.Proofs.Files.Spelling
import NinjaPlan.Proofs.Plan.Validity
import NinjaPlan.Proofs.Project.Discovery
import NinjaPlan.Proofs.Project.Generate

/-! # Texts and sources

A text is written for one set of sources only.  What a build file compiles is read back from it, so
plans with one text compile the same (`exists_source_of_render`), and then the targets behind them
have the same sources (`Plan.exists_source_of_compileEdges`).

It follows that the text tells which sources every target has: where the same text comes of two
trees, the searches of each target find the same in both (`Layout.discover_eq_of_text`). -/

namespace NinjaPlan

/-! ### Sources of one build file -/

theorem Plan.exists_source_of_compileEdges {mapper : ObjectMapper} {entryPoint : Text}
    {targets others : List Target} {p q : Plan} (hp : assemble targets mapper entryPoint = .ok p)
    (hq : assemble others mapper entryPoint = .ok q)
    (hsame : ∀ e ∈ q.compileEdges, ∃ f ∈ p.compileEdges, f.source = e.source) {u : Target}
    (hu : u ∈ others) {s : SourceFile} (hs : s ∈ u.sources) :
    ∃ t ∈ targets, ∃ r ∈ t.sources, r.path ≈ s.path := by
  obtain ⟨a, hcovers, hfinish⟩ := assemble_covers hp
  obtain ⟨b, hcovers', hfinish'⟩ := assemble_covers hq
  obtain ⟨-, first, -, rfl⟩ := Assembly.finish_cases hfinish
  obtain ⟨-, first', -, rfl⟩ := Assembly.finish_cases hfinish'
  obtain ⟨m, hm⟩ := hcovers'.exists_map hu hs
  obtain ⟨e, he, hsource, -⟩ := hcovers'.compiled u hu m ⟨s, hs, hm⟩
  obtain ⟨f, hf, hfe⟩ := hsame e he
  obtain ⟨t, ht, r, hr, hmap⟩ := hcovers.asked f hf
  refine ⟨t, ht, r, hr, ?_⟩
  rw [Path.equiv_def, ObjectMapper.components_of_map hmap, ObjectMapper.components_of_map hm]
  rw [← hfe, Path.equiv_def] at hsource
  rw [hsource]

namespace BuildFile

def Statement.compiled? : Statement → Option (List Text)
  | .build _ r inputs => if r = compileRule then some inputs else none
  | _ => none

theorem compiled?_compileRule (output : Text) (inputs : List Text) :
    Statement.compiled? (.build output compileRule inputs) = some inputs := by
  simp [Statement.compiled?]

theorem compiled?_linkRule (output : Text) (inputs : List Text) :
    Statement.compiled? (.build output linkRule inputs) = none := by
  have hne : linkRule ≠ compileRule := by decide
  simp [Statement.compiled?, hne]

theorem filterMap_compiled?_statements (p : Plan) (c : FlagConfig) :
    (statements p c).filterMap Statement.compiled? =
      p.compileEdges.map fun e => [e.source.text] := by
  have hrules : ∀ text text' : Text, [Statement.rule compileRule, .binding "depfile" depfile,
      .binding "command" text, .rule linkRule, .binding "command" text'].filterMap
        Statement.compiled? = [] := fun _ _ => rfl
  have hdefaults : [Statement.defaults [p.defaultTarget.text]].filterMap
      Statement.compiled? = [] := rfl
  rw [statements, List.filterMap_append, List.filterMap_append, List.filterMap_append, hrules,
    hdefaults, List.filterMap_map, List.filterMap_map]
  simp [compiled?_compileRule, compiled?_linkRule]

theorem exists_source_of_render {p q : Plan} {c c' : FlagConfig} {text : Text}
    (hp : p.InputsNonempty) (hq : q.InputsNonempty) (h : render p c = .ok text)
    (h' : render q c' = .ok text) {e : CompileEdge} (he : e ∈ q.compileEdges) :
    ∃ f ∈ p.compileEdges, f.source = e.source := by
  have hread := (tells_of_render PathSyntax.lenient_knowsEscapes
    (PathSyntax.lenient_expressesPlan hp) h).read
  have hread' := (tells_of_render PathSyntax.lenient_knowsEscapes
    (PathSyntax.lenient_expressesPlan hq) h').read
  have hsame := congrArg (List.filterMap Statement.compiled?)
    (Option.some.inj (hread.symm.trans hread'))
  rw [filterMap_compiled?_statements, filterMap_compiled?_statements] at hsame
  have hmem : [e.source.text] ∈ p.compileEdges.map fun e => [e.source.text] := by
    rw [hsame]
    exact List.mem_map.mpr ⟨e, he, rfl⟩
  obtain ⟨f, hf, htext⟩ := List.mem_map.mp hmem
  exact ⟨f, hf, congrArg Path.mk (List.cons.inj htext).1⟩

end BuildFile

/-! ### Two trees with one text -/

/-- Names in order are known by which ones they are. -/
theorem eq_of_mem_iff_of_ordered {names others : List Text}
    (h : names.Pairwise fun a b => Utf8.encode a < Utf8.encode b)
    (h' : others.Pairwise fun a b => Utf8.encode a < Utf8.encode b)
    (hmem : ∀ name, name ∈ names ↔ name ∈ others) : names = others := by
  have hnodup : ∀ {l : List Text}, (l.Pairwise fun a b => Utf8.encode a < Utf8.encode b) →
      l.Nodup := fun hl => hl.imp fun {a b} hlt heq => by
    subst heq
    exact List.lt_irrefl _ hlt
  refine List.Perm.eq_of_pairwise ?_ h h'
    ((List.perm_ext_iff_of_nodup (hnodup h) (hnodup h')).mpr hmem)
  exact fun a b _ _ hab hba => absurd (List.lt_trans hab hba) (List.lt_irrefl _)

theorem FileTree.HoldsSource.components_join {t : FileTree} {loc : Location}
    {extensions : List Text} {name : Text} (h : t.HoldsSource loc extensions name)
    (hwell : t.WellNamed) {dir : Path} (hdir : dir.text ≠ []) :
    (dir.join ⟨name⟩).components = dir.components ++ [.normal name] := by
  obtain ⟨item, hholds, -, hdecode, -⟩ := h
  have hname := hwell.isName (FileTree.mem_items_iff.mpr hholds) hdecode
  rw [Path.components_join hdir (Path.isAbsolute_of_isName hname), Path.inner_of_isName hname]

namespace Layout

variable {l : Layout} {t u : FileTree} {here : Location} {text : Text} {c c' : FlagConfig}
  (hroot : l.root.text ≠ []) (hwell : t.WellNamed) (hwell' : u.WellNamed)
  (hsingle : t.Single) (hsingle' : u.Single)
  (h : (l.describe t here c).result = .ok text) (h' : (l.describe u here c').result = .ok text)
include hroot hwell hwell' hsingle hsingle' h h'

theorem holdsSource_of_text {spec : TargetSpec} (hspec : spec ∈ l.targets) {loc : Location}
    (hloc : u.directoryAt here (sourceDirectory l.root spec.subdir).bytes = some loc) {name : Text}
    (hname : u.HoldsSource loc l.extensions name) :
    ∃ loc, t.directoryAt here (sourceDirectory l.root spec.subdir).bytes = some loc ∧
      t.HoldsSource loc l.extensions name := by
  obtain ⟨targets, hfinds, p, hp, htext⟩ := describe_eq_ok_iff.mp h
  obtain ⟨others, hfinds', q, hq, htext'⟩ := describe_eq_ok_iff.mp h'
  obtain ⟨w, hw, rfl, hfound'⟩ := forall₂_exists_right hfinds' hspec
  obtain ⟨names', hnames', -, hmem'⟩ := FileTree.exists_names_of_discover hwell' hsingle' hfound'
  have hsource : ⟨(sourceDirectory l.root w.spec.subdir).join ⟨name⟩⟩ ∈ w.sources := by
    rw [hnames']
    exact List.mem_map.mpr ⟨name, (hmem' name).mpr ⟨loc, hloc, hname⟩, rfl⟩
  -- The source is compiled in both files, so a target has it in the first tree.
  obtain ⟨v, hv, r, hr, hequiv⟩ := Plan.exists_source_of_compileEdges hp hq
    (fun _ he => BuildFile.exists_source_of_render (Plan.inputsNonempty_of_assemble hp)
      (Plan.inputsNonempty_of_assemble hq) htext htext' he) hw hsource
  obtain ⟨spec, -, rfl, hfound⟩ := forall₂_exists_left hfinds hv
  obtain ⟨names, hnames, -, hmem⟩ := FileTree.exists_names_of_discover hwell hsingle hfound
  rw [hnames] at hr
  obtain ⟨name', hname', rfl⟩ := List.mem_map.mp hr
  obtain ⟨loc', hloc', hholds⟩ := (hmem name').mp hname'
  -- Its directory is the same as that of the target in question, if not spelled alike.
  have hne : ∀ subdir, (sourceDirectory l.root subdir).text ≠ [] := fun subdir =>
    Path.join_text_ne_nil hroot _
  rw [Path.equiv_def, hholds.components_join hwell (hne _),
    hname.components_join hwell' (hne _)] at hequiv
  obtain ⟨habove, hlast⟩ := List.append_inj' hequiv rfl
  obtain rfl : name' = name := by simpa using hlast
  obtain ⟨hnul, hempty, hshort, -, -⟩ := FileTree.directoryAt_eq_some_iff.mp hloc
  exact ⟨loc', FileTree.directoryAt_of_equiv (Path.equiv_def.mpr habove) hloc' hnul hempty hshort,
    hholds⟩

/-- **A text tells what is found.**  If the same text comes of two trees, every search for sources
finds the same in both. -/
theorem discover_eq_of_text {spec : TargetSpec} (hspec : spec ∈ l.targets) :
    (discover u here l.root spec.subdir l.extensions).result =
      (discover t here l.root spec.subdir l.extensions).result := by
  obtain ⟨targets, hfinds, -⟩ := describe_eq_ok_iff.mp h
  obtain ⟨others, hfinds', -⟩ := describe_eq_ok_iff.mp h'
  obtain ⟨v, -, -, hfound⟩ := forall₂_exists_right hfinds hspec
  obtain ⟨w, -, -, hfound'⟩ := forall₂_exists_right hfinds' hspec
  obtain ⟨names, hnames, horder, hmem⟩ := FileTree.exists_names_of_discover hwell hsingle hfound
  obtain ⟨names', hnames', horder', hmem'⟩ :=
    FileTree.exists_names_of_discover hwell' hsingle' hfound'
  have hsame : names' = names := by
    refine eq_of_mem_iff_of_ordered horder' horder fun name => ?_
    rw [hmem, hmem']
    constructor
    · rintro ⟨loc, hloc, hname⟩
      exact holdsSource_of_text hroot hwell hwell' hsingle hsingle' h h' hspec hloc hname
    · rintro ⟨loc, hloc, hname⟩
      exact holdsSource_of_text hroot hwell' hwell hsingle' hsingle h' h hspec hloc hname
  rw [hfound, hfound', hnames, hnames', hsame]

end Layout
end NinjaPlan
