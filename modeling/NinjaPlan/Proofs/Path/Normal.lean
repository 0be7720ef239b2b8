import Mathlib.Data.List.DropRight
import Mathlib.Data.List.Induction
import NinjaPlan.Path.Normal
import NinjaPlan.Proofs.Path.Spelling

/-! # Normal forms

The normal form of a relative path climbs and then goes down through names
(`normalComponents_of_relative`); that of an absolute path goes down from the root
(`normalComponents_of_absolute`).  How far it climbs and which names it goes down, `climb` and
`descent`, decide where the path leads from any directory: behind an absolute path it drops as many
names as it climbs and adds its own (`descent_append`).

Normalizing gives the path of these components (`components_normalize`), so a path ends up below a
normal base exactly if it comes down again by the names of the base that it has climbed over
(`normalize_below_iff`). -/

namespace NinjaPlan.Path

def Component.name? : Component → Option Text
  | normal name => some name
  | _ => none

/-- How many `..` come first in the normal form. -/
def climb (p : Path) : Nat := p.normalComponents.count .parent

/-- The names in the normal form. -/
def descent (p : Path) : List Text := p.normalComponents.filterMap Component.name?

/-- The path is strictly below the base. -/
def Below (p base : Path) : Prop := ∃ rest ≠ [], p.components = base.components ++ rest

/-- Taken from the base, the path ends strictly below it: it comes down again by the names of the
base that it has climbed over, and goes on. -/
def ReturnsBelow (p base : Path) : Prop :=
  ∃ rest ≠ [], p.descent = base.descent.rtake p.climb ++ rest

/-! ### Pushing components -/

theorem pushNormal_parent_of_climbing (k : Nat) :
    pushNormal (List.replicate k .parent) .parent = List.replicate (k + 1) .parent := by
  cases k <;> rfl

/-- At the root a `..` vanishes, and below it takes back a name. -/
theorem pushNormal_parent_of_descending (above : List Text) :
    pushNormal (above.map .normal ++ [.root]) .parent = (above.drop 1).map .normal ++ [.root] := by
  cases above <;> rfl

theorem pushNormal_normal (above : List Component) (name : Text) :
    pushNormal above (.normal name) = .normal name :: above := by
  unfold pushNormal
  split <;> simp_all

/-- Inner components climb `k` times and go down through `names`, whether they are taken from
nowhere or from a directory below the root.  All names are given last first. -/
theorem exists_foldl_pushNormal {cs : List Component} (h : ∀ c ∈ cs, c ≠ .root ∧ c ≠ .current) :
    ∃ (k : Nat) (names : List Text),
      cs.foldl pushNormal [] = names.map .normal ++ List.replicate k .parent ∧
      ∀ above : List Text, cs.foldl pushNormal (above.map .normal ++ [.root]) =
        names.map .normal ++ ((above.drop k).map .normal ++ [.root]) := by
  induction cs using List.reverseRecOn with
  | nil => exact ⟨0, [], rfl, fun _ => rfl⟩
  | append_singleton cs c ih =>
      obtain ⟨k, names, hrel, habs⟩ := ih fun d hd => h d (List.mem_append_left _ hd)
      obtain ⟨hroot, hcurrent⟩ := h c (by simp)
      simp only [List.foldl_concat, hrel, habs]
      cases c with
      | root => exact absurd rfl hroot
      | current => exact absurd rfl hcurrent
      | normal name => exact ⟨k, name :: names, by simp [pushNormal_normal]⟩
      | parent =>
          cases names with
          | cons name names => exact ⟨k, names, rfl, fun _ => rfl⟩
          | nil =>
              refine ⟨k + 1, [], pushNormal_parent_of_climbing k, fun above => ?_⟩
              simp only [List.map_nil, List.nil_append, pushNormal_parent_of_descending,
                List.drop_drop]

/-! ### The two kinds of normal forms -/

theorem foldl_components_of_relative {p : Path} (h : p.isAbsolute = false) :
    p.components.foldl pushNormal [] = p.inner.foldl pushNormal [] := by
  rw [components_eq, opening_fst, h]
  by_cases hdot : p.segments.head? = some ['.'] <;> simp [hdot, pushNormal]

theorem filterMap_name?_map_normal (names : List Text) :
    (names.map Component.normal).filterMap Component.name? = names := by
  simp [List.filterMap_map, Function.comp_def, Component.name?]

/-- The normal form of a relative path climbs and then goes down; taken from a directory below the
root, the path drops as many names of the directory as it climbs and adds its own. -/
theorem relative_spec {p : Path} (h : p.isAbsolute = false) :
    p.normalComponents = List.replicate p.climb .parent ++ p.descent.map .normal ∧
      ∀ above : List Text, p.inner.foldl pushNormal (above.map .normal ++ [.root]) =
        p.descent.reverse.map .normal ++ ((above.drop p.climb).map .normal ++ [.root]) := by
  have hinner : ∀ c ∈ p.inner, c ≠ .root ∧ c ≠ .current := fun _ hc => isInner_of_mem_inner hc
  obtain ⟨k, names, hrel, habs⟩ := exists_foldl_pushNormal hinner
  have hnormal : p.normalComponents =
      List.replicate k .parent ++ names.reverse.map .normal := by
    rw [normalComponents, foldl_components_of_relative h, hrel]
    simp
  have hclimb : p.climb = k := by
    have hzero : (names.reverse.map Component.normal).count .parent = 0 := by
      simp [List.count_eq_zero]
    rw [climb, hnormal, List.count_append, List.count_replicate_self, hzero, Nat.add_zero]
  have hdescent : p.descent = names.reverse := by
    have hnone : (List.replicate k Component.parent).filterMap Component.name? = [] := by
      simp [List.filterMap_eq_nil_iff, Component.name?]
    rw [descent, hnormal, List.filterMap_append, hnone, filterMap_name?_map_normal,
      List.nil_append]
  rw [hclimb, hdescent, List.reverse_reverse]
  exact ⟨hnormal, habs⟩

theorem normalComponents_of_relative {p : Path} (h : p.isAbsolute = false) :
    p.normalComponents = List.replicate p.climb .parent ++ p.descent.map .normal :=
  (relative_spec h).1

theorem normalComponents_of_absolute {p : Path} (h : p.isAbsolute = true) :
    p.normalComponents = .root :: p.descent.map .normal := by
  have hinner : ∀ c ∈ p.inner, c ≠ .root ∧ c ≠ .current := fun _ hc => isInner_of_mem_inner hc
  obtain ⟨k, names, -, habs⟩ := exists_foldl_pushNormal hinner
  have hnormal : p.normalComponents = .root :: names.reverse.map .normal := by
    rw [normalComponents, components_of_absolute h, List.foldl_cons]
    have hfold := habs []
    simp only [List.map_nil, List.nil_append, List.drop_nil] at hfold
    simp [pushNormal, hfold]
  have hdescent : p.descent = names.reverse := by
    rw [descent, hnormal, List.filterMap_cons_none rfl, filterMap_name?_map_normal]
  rw [hdescent, hnormal]

/-- Behind an absolute path, a relative one drops names and adds its own. -/
theorem descent_append {p base q : Path} (hbase : base.isAbsolute = true)
    (hq : q.isAbsolute = false) (h : p.components = base.components ++ q.inner) :
    p.isAbsolute = true ∧ p.descent = base.descent.rdrop q.climb ++ q.descent := by
  have hp : p.isAbsolute = true := by
    rw [isAbsolute_iff, h, components_of_absolute hbase]
    rfl
  refine ⟨hp, ?_⟩
  have hstack : base.components.foldl pushNormal [] =
      base.descent.reverse.map .normal ++ [.root] := by
    have hreverse := congrArg List.reverse (normalComponents_of_absolute hbase)
    simpa [normalComponents] using hreverse
  have hnormal : p.normalComponents =
      .root :: (base.descent.rdrop q.climb ++ q.descent).map .normal := by
    rw [normalComponents, h, List.foldl_append, hstack, (relative_spec hq).2,
      List.rdrop_eq_reverse_drop_reverse]
    simp
  rw [descent, hnormal, List.filterMap_cons_none rfl, filterMap_name?_map_normal]

/-! ### Writing the normal form -/

/-- The component is read back from its text. -/
def Component.Spelled (c : Component) : Prop := ofSegment c.text = some c ∧ '/' ∉ c.text

theorem spelled_of_mem_inner {p : Path} {c : Component} (h : c ∈ p.inner) : c.Spelled := by
  obtain ⟨s, hs, hsome⟩ := List.mem_filterMap.mp h
  obtain rfl := text_of_ofSegment hsome
  exact ⟨hsome, slash_not_mem_segment hs⟩

theorem mem_foldl_pushNormal {above cs : List Component} {c : Component}
    (h : c ∈ cs.foldl pushNormal above) : c ∈ above ∨ c ∈ cs := by
  have hpush : ∀ above d, pushNormal above d ⊆ d :: above := by
    intro above d
    unfold pushNormal
    split <;> simp
  induction cs generalizing above with
  | nil => exact Or.inl h
  | cons d cs ih =>
      rcases ih h with h | h
      · rcases List.mem_cons.mp (hpush above d h) with rfl | h
        · exact Or.inr List.mem_cons_self
        · exact Or.inl h
      · exact Or.inr (List.mem_cons_of_mem _ h)

theorem normalComponents_subset (p : Path) : p.normalComponents ⊆ p.components := by
  intro c hc
  rw [normalComponents, List.mem_reverse] at hc
  exact (mem_foldl_pushNormal hc).resolve_left List.not_mem_nil

theorem spelled_of_mem_descent {p : Path} {name : Text} (h : name ∈ p.descent) :
    (Component.normal name).Spelled := by
  obtain ⟨c, hc, hname⟩ := List.mem_filterMap.mp h
  have hcomp : .normal name ∈ p.components := by
    cases c with
    | normal n => obtain rfl := Option.some.inj hname; exact p.normalComponents_subset hc
    | root | current | parent => cases hname
  exact spelled_of_mem_inner (normal_mem_components_iff.mp hcomp)

theorem filterMap_text {cs : List Component} (h : ∀ c ∈ cs, c.Spelled) :
    (cs.map Component.text).filterMap Component.ofSegment = cs := by
  induction cs with
  | nil => rfl
  | cons c cs ih =>
      obtain ⟨⟨hc, -⟩, hcs⟩ := List.forall_mem_cons.mp h
      rw [List.map_cons, List.filterMap_cons_some hc, ih hcs]

theorem components_joinSegments {cs : List Component} (h : ∀ c ∈ cs, c.Spelled) :
    components ⟨joinSegments (cs.map Component.text)⟩ = cs ∧
      components ⟨'/' :: joinSegments (cs.map Component.text)⟩ = .root :: cs := by
  have hslash : ∀ s ∈ cs.map Component.text, '/' ∉ s :=
    List.forall_mem_map.mpr fun c hc => (h c hc).2
  have hhead : ∀ s rest, cs.map Component.text = s :: rest → blank s = false := by
    intro s rest hs
    cases cs with
    | nil => cases hs
    | cons c cs =>
        obtain ⟨rfl, -⟩ := List.cons.inj hs
        have hc := (h c List.mem_cons_self).1
        cases hb : blank c.text with
        | false => rfl
        | true => rw [ofSegment_of_blank hb] at hc; cases hc
  have hnone : ReadsBack none (cs.map Component.text) :=
    ⟨hslash, Or.inr (Or.inr ⟨rfl, hhead⟩)⟩
  have hroot : ReadsBack (some .root) (cs.map Component.text) := ⟨hslash, Or.inl rfl⟩
  constructor
  · exact (components_write hnone).trans (filterMap_text h)
  · exact (components_write hroot).trans (congrArg (Component.root :: ·) (filterMap_text h))

theorem spelled_of_mem_normalComponents {p : Path} (h : p.isAbsolute = false) :
    ∀ c ∈ p.normalComponents, c.Spelled := by
  rw [normalComponents_of_relative h]
  refine List.forall_mem_append.mpr ⟨?_, ?_⟩
  · intro c hc
    obtain rfl := List.eq_of_mem_replicate hc
    exact ⟨rfl, by decide⟩
  · exact List.forall_mem_map.mpr fun _ hname => spelled_of_mem_descent hname

/-- A relative path has its normal components as segments, if it has any. -/
theorem normalize_of_relative {p : Path} (h : p.isAbsolute = false) :
    p.normalize = ⟨joinSegments (p.normalComponents.map Component.text)⟩ := by
  rw [normalize, ofComponents]
  intro rest hrest
  have hroot := (spelled_of_mem_normalComponents h .root (by simp [hrest])).1
  cases hroot

theorem components_normalize (p : Path) : p.normalize.components = p.normalComponents := by
  cases habs : p.isAbsolute with
  | true =>
      have hdescent : ∀ c ∈ p.descent.map Component.normal, c.Spelled :=
        List.forall_mem_map.mpr fun _ hname => spelled_of_mem_descent hname
      rw [normalize, normalComponents_of_absolute habs, ofComponents]
      exact (components_joinSegments hdescent).2
  | false =>
      rw [normalize_of_relative habs]
      exact (components_joinSegments (spelled_of_mem_normalComponents habs)).1

theorem normalize_eq_iff {p q : Path} :
    p.normalize = q.normalize ↔ p.normalComponents = q.normalComponents := by
  constructor
  · intro h
    rw [← components_normalize, ← components_normalize, h]
  · exact congrArg ofComponents

theorem normalize_eq_of_equiv {p q : Path} (h : p ≈ q) : p.normalize = q.normalize := by
  rw [normalize_eq_iff, normalComponents, normalComponents, equiv_def.mp h]

theorem isAbsolute_normalize (p : Path) : p.normalize.isAbsolute = p.isAbsolute := by
  rw [Bool.eq_iff_iff, isAbsolute_iff, components_normalize]
  cases h : p.isAbsolute with
  | true => simp [normalComponents_of_absolute h]
  | false =>
      rw [normalComponents_of_relative h]
      cases hk : p.climb with
      | zero => cases hd : p.descent <;> simp
      | succ k => simp [List.replicate_succ]

theorem normalComponents_concat {p dir : Path} {name : Text}
    (h : p.components = dir.components ++ [.normal name]) :
    p.normalComponents = dir.normalComponents ++ [.normal name] := by
  rw [normalComponents, h, List.foldl_concat, pushNormal_normal, List.reverse_cons,
    normalComponents]

/-! ### Paths without `..` -/

theorem foldl_pushNormal_of_normal {cs : List Component} (h : ∀ c ∈ cs, ∃ name, c = .normal name)
    (above : List Component) : cs.foldl pushNormal above = cs.reverse ++ above := by
  induction cs generalizing above with
  | nil => rfl
  | cons c cs ih =>
      obtain ⟨⟨name, rfl⟩, hcs⟩ := List.forall_mem_cons.mp h
      rw [List.foldl_cons, pushNormal_normal, ih hcs, List.reverse_cons, List.append_assoc]
      rfl

theorem normalComponents_of_not_mem_parent {p : Path} (habs : p.isAbsolute = true)
    (h : .parent ∉ p.components) : p.normalComponents = p.components := by
  have hnames : ∀ c ∈ p.inner, ∃ name, c = .normal name := by
    intro c hc
    obtain ⟨hroot, hcurrent⟩ := isInner_of_mem_inner hc
    cases c with
    | root => exact absurd rfl hroot
    | current => exact absurd rfl hcurrent
    | parent => exact absurd (by simp [components_of_absolute habs, hc]) h
    | normal name => exact ⟨name, rfl⟩
  rw [normalComponents, components_of_absolute habs, List.foldl_cons,
    foldl_pushNormal_of_normal hnames]
  simp [pushNormal]

theorem climb_eq_zero {p : Path} (h : .parent ∉ p.components) : p.climb = 0 :=
  List.count_eq_zero.mpr fun hmem => h (p.normalComponents_subset hmem)

theorem descent_ne_nil {p : Path} {name : Text} (h : p.fileName = some name) :
    p.descent ≠ [] := by
  obtain ⟨front, hfront⟩ := List.getLast?_eq_some_iff.mp (fileName_eq_some_iff.mp h)
  have hmem : .normal name ∈ p.normalComponents := by
    rw [normalComponents, hfront, List.foldl_concat, pushNormal_normal, List.mem_reverse]
    exact List.mem_cons_self
  exact List.ne_nil_of_mem (List.mem_filterMap.mpr ⟨_, hmem, rfl⟩)

/-! ### Normalizing again -/

theorem foldl_pushNormal_replicate_parent (k : Nat) :
    (List.replicate k Component.parent).foldl pushNormal [] = List.replicate k .parent := by
  induction k with
  | zero => rfl
  | succ k ih =>
      rw [List.replicate_succ', List.foldl_concat, ih, pushNormal_parent_of_climbing,
        List.replicate_succ']

theorem normalComponents_normalize (p : Path) :
    p.normalize.normalComponents = p.normalComponents := by
  have hnames : ∀ c ∈ p.descent.map Component.normal, ∃ name, c = .normal name :=
    List.forall_mem_map.mpr fun name _ => ⟨name, rfl⟩
  cases habs : p.isAbsolute with
  | true =>
      have hparent : .parent ∉ p.normalize.components := by
        simp [components_normalize, normalComponents_of_absolute habs]
      rw [normalComponents_of_not_mem_parent (p.isAbsolute_normalize.trans habs) hparent,
        components_normalize]
  | false =>
      rw [normalComponents, components_normalize, normalComponents_of_relative habs,
        List.foldl_append, foldl_pushNormal_replicate_parent, foldl_pushNormal_of_normal hnames]
      simp

theorem climb_normalize (p : Path) : p.normalize.climb = p.climb := by
  rw [climb, normalComponents_normalize, climb]

theorem descent_normalize (p : Path) : p.normalize.descent = p.descent := by
  rw [descent, normalComponents_normalize, descent]

/-! ### Paths below a base -/

theorem normalize_below_iff_descent {p base : Path} (hp : p.isAbsolute = true)
    (hbase : base.isAbsolute = true) (hnormal : base.normalize ≈ base) :
    p.normalize.Below base ↔ ∃ rest ≠ [], p.descent = base.descent ++ rest := by
  have hcomp : base.components = .root :: base.descent.map .normal := by
    rw [← equiv_def.mp hnormal, components_normalize, normalComponents_of_absolute hbase]
  unfold Below
  rw [components_normalize, normalComponents_of_absolute hp, hcomp]
  constructor
  · rintro ⟨rest, hrest, heq⟩
    obtain ⟨front, back, hdescent, hfront, rfl⟩ :=
      List.map_eq_append_iff.mp (List.cons.inj heq).2
    have hinj : Function.Injective Component.normal := fun _ _ h => Component.normal.inj h
    obtain rfl := hinj.list_map hfront
    exact ⟨back, by simpa using hrest, hdescent⟩
  · rintro ⟨rest, hrest, heq⟩
    exact ⟨rest.map .normal, by simpa using hrest, by simp [heq]⟩

/-- A path taken from a normal base ends up below it exactly if it returns below it. -/
theorem normalize_below_iff {p base q : Path} (hbase : base.isAbsolute = true)
    (hnormal : base.normalize ≈ base) (hq : q.isAbsolute = false)
    (h : p.components = base.components ++ q.inner) :
    p.normalize.Below base ↔ q.ReturnsBelow base := by
  obtain ⟨hp, hdescent⟩ := descent_append hbase hq h
  have hsplit : base.descent.rdrop q.climb ++ base.descent.rtake q.climb = base.descent :=
    List.take_append_drop _ _
  rw [normalize_below_iff_descent hp hbase hnormal, hdescent, ReturnsBelow]
  refine exists_congr fun rest => and_congr_right fun _ => ?_
  have hnames : base.descent ++ rest =
      base.descent.rdrop q.climb ++ (base.descent.rtake q.climb ++ rest) := by
    rw [← List.append_assoc, hsplit]
  rw [hnames, List.append_right_inj]

theorem normalize_below_iff_of_concat {p dir base : Path} {name : Text}
    (h : p.components = dir.components ++ [.normal name]) :
    p.normalize.Below base ↔ base.components <+: dir.normalize.components := by
  unfold Below
  rw [components_normalize, components_normalize, normalComponents_concat h]
  constructor
  · rintro ⟨rest, hrest, heq⟩
    obtain ⟨front, last, rfl⟩ := (List.eq_nil_or_concat rest).resolve_left hrest
    rw [List.concat_eq_append, ← List.append_assoc] at heq
    exact ⟨front, (List.append_inj_left' heq rfl).symm⟩
  · rintro ⟨front, hfront⟩
    exact ⟨front ++ [.normal name], by simp, by rw [← hfront, List.append_assoc]⟩

theorem returnsBelow_of_climb_eq_zero {p : Path} (h : p.climb = 0) (hne : p.descent ≠ [])
    (base : Path) : p.ReturnsBelow base :=
  ⟨p.descent, hne, by rw [h, List.rtake_zero, List.nil_append]⟩

end NinjaPlan.Path
