import NinjaPlan.Path.Basic

/-! # Components of paths that are put together

The components of a path are its opening followed by what its segments name
(`components_eq`).  That settles what the operations on texts do to the meaning: `join` puts the
inner components of the lower path behind those of the upper one (`components_join`), and
`stripPrefix?` takes exactly the components of the base away (`components_stripPrefix?`).

The path that `stripPrefix?` leaves ends in a segment that is not blank, if it has a file name
at all (`segments_stripPrefix?`), which is what cutting at the end of its text relies on. -/

namespace NinjaPlan

namespace Path

/-! ### Segments -/

theorem segments_eq_splitOn (p : Path) : p.segments = p.text.splitOn '/' :=
  Text.pieces_eq_splitOn '/' p.text

theorem segments_ne_nil (p : Path) : p.segments ≠ [] := Text.pieces_ne_nil '/' p.text

theorem slash_not_mem_segment {p : Path} {s : Text} (h : s ∈ p.segments) : '/' ∉ s :=
  Text.not_mem_of_mem_pieces h

theorem segments_joinSegments {segs : List Text} (hne : segs ≠ []) (h : ∀ s ∈ segs, '/' ∉ s) :
    segments ⟨joinSegments segs⟩ = segs := by
  rw [segments_eq_splitOn]
  exact List.splitOn_intercalate '/' h hne

theorem segments_append_slash (s t : Text) :
    segments ⟨s ++ '/' :: t⟩ = segments ⟨s⟩ ++ segments ⟨t⟩ :=
  Text.pieces_append_sep '/' s t

theorem blank_eq_true_iff {s : Text} : blank s = true ↔ s = [] ∨ s = ['.'] := by
  simp [blank]

theorem ofSegment_of_blank {s : Text} (h : blank s = true) : Component.ofSegment s = none := by
  rw [blank_eq_true_iff] at h
  rw [Component.ofSegment, if_pos h]

/-- The component that a segment names if it is not blank. -/
def Component.ofName (s : Text) : Component := if s = ['.', '.'] then .parent else .normal s

theorem ofSegment_of_not_blank {s : Text} (h : blank s = false) :
    Component.ofSegment s = some (Component.ofName s) := by
  have hs : ¬ (s = [] ∨ s = ['.']) := by
    rw [← blank_eq_true_iff, h]
    exact Bool.false_ne_true
  unfold Component.ofSegment Component.ofName
  rw [if_neg hs]
  split <;> rfl

theorem Component.ofName_injective : Function.Injective Component.ofName := by
  intro s t h
  unfold Component.ofName at h
  by_cases hs : s = ['.', '.'] <;> by_cases ht : t = ['.', '.'] <;> simp_all

theorem filterMap_dropWhile_blank (segs : List Text) :
    (segs.dropWhile blank).filterMap Component.ofSegment = segs.filterMap Component.ofSegment := by
  induction segs with
  | nil => rfl
  | cons s segs ih =>
      cases hs : blank s with
      | true => rw [List.dropWhile_cons_of_pos hs, ih, List.filterMap_cons, ofSegment_of_blank hs]
      | false => rw [List.dropWhile_cons_of_neg (by simp [hs])]

theorem filterMap_dropBlankEnd (segs : List Text) :
    (dropBlankEnd segs).filterMap Component.ofSegment = segs.filterMap Component.ofSegment := by
  rw [dropBlankEnd, List.filterMap_reverse, filterMap_dropWhile_blank, List.filterMap_reverse,
    List.reverse_reverse]

theorem dropBlankEnd_subset (segs : List Text) : dropBlankEnd segs ⊆ segs := by
  intro s hs
  rw [dropBlankEnd, List.mem_reverse] at hs
  exact List.mem_reverse.mp (List.dropWhile_subset _ hs)

theorem dropBlankEnd_cases (segs : List Text) :
    dropBlankEnd segs = [] ∨ ∃ above s, dropBlankEnd segs = above ++ [s] ∧ blank s = false := by
  unfold dropBlankEnd
  cases hd : segs.reverse.dropWhile blank with
  | nil => exact Or.inl rfl
  | cons s above =>
      have hs := List.head?_dropWhile_not blank segs.reverse
      rw [hd] at hs
      exact Or.inr ⟨above.reverse, s, by simp, by simpa using hs⟩

/-! ### Openings -/

/-- The components that the segments name, the opening left aside. -/
def inner (p : Path) : List Component := p.segments.filterMap Component.ofSegment

theorem opening_cases (p : Path) :
    (∃ s rest, p.segments = [] :: s :: rest ∧ p.opening = (some .root, s :: rest)) ∨
      (∃ rest, p.segments = ['.'] :: rest ∧ p.opening = (some .current, rest)) ∨
      (p.opening = (none, p.segments) ∧ (∀ s rest, p.segments = s :: rest → rest ≠ [] → s ≠ []) ∧
        ∀ s rest, p.segments = s :: rest → s ≠ ['.']) := by
  unfold opening
  split
  · next s rest h => exact Or.inl ⟨s, rest, h, rfl⟩
  · next rest h => exact Or.inr (Or.inl ⟨rest, h, rfl⟩)
  · next hroot hcurrent =>
      refine Or.inr (Or.inr ⟨rfl, ?_, ?_⟩)
      · rintro s rest h hrest rfl
        obtain ⟨t, ts, rfl⟩ := List.exists_cons_of_ne_nil hrest
        exact hroot t ts h
      · rintro s rest h rfl
        exact hcurrent rest h

theorem filterMap_opening (p : Path) : p.opening.2.filterMap Component.ofSegment = p.inner := by
  rcases p.opening_cases with ⟨s, rest, h, ho⟩ | ⟨rest, h, ho⟩ | ⟨ho, -, -⟩
  · rw [inner, h, ho]
    rfl
  · rw [inner, h, ho]
    rfl
  · rw [inner, ho]

theorem components_eq (p : Path) : p.components = p.opening.1.toList ++ p.inner := by
  rw [components, filterMap_opening]

theorem isAbsolute_iff_segments (p : Path) :
    p.isAbsolute = true ↔ ∃ rest, rest ≠ [] ∧ p.segments = [] :: rest := by
  rw [isAbsolute, beq_iff_eq, segments_eq_splitOn]
  cases p.text with
  | nil => simp
  | cons c text =>
      obtain ⟨t, ts, ht⟩ := List.exists_cons_of_ne_nil (List.splitOn_ne_nil '/' text)
      by_cases hc : c = '/' <;> simp [List.splitOn_cons_eq_if_modifyHead, hc, ht]

theorem opening_fst (p : Path) :
    p.opening.1 = if p.isAbsolute then some .root
      else if p.segments.head? = some ['.'] then some .current else none := by
  rcases p.opening_cases with ⟨s, rest, h, ho⟩ | ⟨rest, h, ho⟩ | ⟨ho, hroot, hcurrent⟩
  · rw [ho, if_pos ((isAbsolute_iff_segments p).mpr ⟨_, List.cons_ne_nil _ _, h⟩)]
  · have hrel : ¬ p.isAbsolute = true := by
      rw [isAbsolute_iff_segments, h]
      simp
    rw [ho, if_neg hrel, if_pos (by simp [h])]
  · have hrel : ¬ p.isAbsolute = true := by
      intro hp
      obtain ⟨rest, hne, h⟩ := (isAbsolute_iff_segments p).mp hp
      exact hroot _ _ h hne rfl
    have hdot : ¬ p.segments.head? = some ['.'] := by
      intro hhead
      obtain ⟨rest, h⟩ := List.head?_eq_some_iff.mp hhead
      exact hcurrent _ _ h rfl
    rw [ho, if_neg hrel, if_neg hdot]

theorem opening_fst_cases (p : Path) :
    p.opening.1 = none ∨ p.opening.1 = some .root ∨ p.opening.1 = some .current := by
  rw [opening_fst]
  split
  · exact Or.inr (Or.inl rfl)
  · split
    · exact Or.inr (Or.inr rfl)
    · exact Or.inl rfl

theorem isInner_of_mem_inner {p : Path} {c : Component} (h : c ∈ p.inner) :
    c ≠ .root ∧ c ≠ .current := by
  obtain ⟨s, -, hs⟩ := List.mem_filterMap.mp h
  unfold Component.ofSegment at hs
  split at hs
  · cases hs
  · split at hs <;> (obtain rfl := Option.some.inj hs; simp)

/-- A root or a dot comes first. -/
theorem mem_inner_of_mem_tail {p : Path} {c : Component} (h : c ∈ p.components.tail) :
    c ∈ p.inner := by
  rw [components_eq] at h
  rcases p.opening_fst_cases with ho | ho | ho
  · rw [ho] at h
    exact List.mem_of_mem_tail h
  · rwa [ho] at h
  · rwa [ho] at h

theorem inner_eq_filter (p : Path) :
    p.inner = p.components.filter fun c => c ≠ .root ∧ c ≠ .current := by
  have hinner : p.inner.filter (fun c => c ≠ .root ∧ c ≠ .current) = p.inner :=
    List.filter_eq_self.mpr fun c hc => decide_eq_true (isInner_of_mem_inner hc)
  rw [components_eq, List.filter_append, hinner]
  rcases p.opening_fst_cases with ho | ho | ho <;> simp [ho]

theorem inner_eq_of_equiv {p q : Path} (h : p ≈ q) : p.inner = q.inner := by
  rw [inner_eq_filter, inner_eq_filter, equiv_def.mp h]

theorem isAbsolute_iff (p : Path) : p.isAbsolute = true ↔ p.components.head? = some .root := by
  have hinner : p.inner.head? ≠ some .root := fun h =>
    (isInner_of_mem_inner (List.mem_of_head? h)).1 rfl
  rw [components_eq, opening_fst]
  by_cases habs : p.isAbsolute = true
  · simp [habs]
  · by_cases hdot : p.segments.head? = some ['.'] <;> simp [habs, hdot, hinner]

theorem text_ne_nil_of_isAbsolute {p : Path} (h : p.isAbsolute = true) : p.text ≠ [] := by
  intro htext
  rw [isAbsolute, htext] at h
  cases h

theorem components_of_absolute {p : Path} (h : p.isAbsolute = true) :
    p.components = .root :: p.inner := by
  rw [components_eq, opening_fst, if_pos h]
  rfl

/-! ### The last segment -/

theorem components_of_segments {p q : Path} {above : List Text} {s t : Text}
    (hp : p.segments = above ++ [s]) (hq : q.segments = above ++ [t])
    (hs : blank s = false) (ht : blank t = false) :
    ∃ front, p.components = front ++ [Component.ofName s] ∧
      q.components = front ++ [Component.ofName t] := by
  have hnotDot : ∀ u : Text, blank u = false → ¬ u = ['.'] := by
    rintro u hu rfl
    cases hu
  have hopen : p.opening.1 = q.opening.1 := by
    rw [opening_fst, opening_fst]
    cases above with
    | nil =>
        have habs : ∀ r u, segments r = [] ++ [u] → ¬ r.isAbsolute = true := by
          intro r u hr
          rw [isAbsolute_iff_segments, hr]
          simp
        rw [if_neg (habs p s hp), if_neg (habs q t hq), hp, hq]
        simp [hnotDot s hs, hnotDot t ht]
    | cons u above =>
        have habs : p.isAbsolute = q.isAbsolute := by
          rw [Bool.eq_iff_iff, isAbsolute_iff_segments, isAbsolute_iff_segments, hp, hq]
          simp
        rw [habs, hp, hq]
        rfl
  refine ⟨p.opening.1.toList ++ above.filterMap Component.ofSegment, ?_, ?_⟩
  · rw [components_eq, inner, hp, List.filterMap_append, List.append_assoc]
    simp [ofSegment_of_not_blank hs]
  · rw [components_eq, inner, hq, List.filterMap_append, List.append_assoc, hopen]
    simp [ofSegment_of_not_blank ht]

theorem fileName_eq_some_iff {p : Path} {name : Text} :
    p.fileName = some name ↔ p.components.getLast? = some (.normal name) := by
  unfold fileName
  split <;> simp_all

theorem fileName_of_segments {p : Path} {above : List Text} {s : Text}
    (hp : p.segments = above ++ [s]) (hs : blank s = false) (hup : s ≠ ['.', '.']) :
    p.fileName = some s := by
  obtain ⟨front, hfront, -⟩ := components_of_segments hp hp hs hs
  rw [fileName, hfront, List.getLast?_concat, Component.ofName, if_neg hup]

/-- The text names a file of a directory. -/
def IsName (s : Text) : Prop := '/' ∉ s ∧ blank s = false ∧ s ≠ ['.', '.']

theorem segments_of_isName {s : Text} (h : IsName s) : segments ⟨s⟩ = [s] := by
  have hjoin : joinSegments [s] = s := by simp [joinSegments]
  rw [← hjoin, segments_joinSegments (List.cons_ne_nil s []) (by simpa using h.1), hjoin]

theorem inner_of_isName {s : Text} (h : IsName s) : inner ⟨s⟩ = [.normal s] := by
  rw [inner, segments_of_isName h, List.filterMap_cons_some (ofSegment_of_not_blank h.2.1),
    Component.ofName, if_neg h.2.2]
  rfl

theorem isAbsolute_of_isName {s : Text} (h : IsName s) : isAbsolute ⟨s⟩ = false := by
  rw [Bool.eq_false_iff, ne_eq, isAbsolute_iff_segments, segments_of_isName h]
  simp

/-! ### Joining -/

/-- A path that is not empty has one text with a slash before all relative paths. -/
theorem exists_join_text {p : Path} (hp : p.text ≠ []) :
    ∃ d, (p.text = d ∨ p.text = d ++ ['/']) ∧
      ∀ q : Path, q.isAbsolute = false → p.join q = ⟨d ++ '/' :: q.text⟩ := by
  unfold join
  by_cases hslash : p.text.getLast? = some '/'
  · obtain ⟨d, hd⟩ := List.getLast?_eq_some_iff.mp hslash
    exact ⟨d, Or.inr hd, fun q hq => by simp [hq, hd]⟩
  · exact ⟨p.text, Or.inl rfl, fun q hq => by simp [hq, hslash, hp]⟩

/-- Unless the upper path is empty or the lower one absolute, there is a slash between them. -/
theorem join_text {p q : Path} (hp : p.text ≠ []) (hq : q.isAbsolute = false) :
    ∃ d, p.join q = ⟨d ++ '/' :: q.text⟩ ∧ (p.text = d ∨ p.text = d ++ ['/']) := by
  obtain ⟨d, hd, hjoin⟩ := exists_join_text hp
  exact ⟨d, hjoin q hq, hd⟩

theorem join_of_isAbsolute {p q : Path} (hq : q.isAbsolute = true) : p.join q = q := by
  rw [join, if_pos hq]

theorem join_of_empty {p q : Path} (hp : p.text = []) : p.join q = q := by
  simp [join, hp]

theorem join_text_ne_nil {p : Path} (hp : p.text ≠ []) (q : Path) : (p.join q).text ≠ [] := by
  cases hq : q.isAbsolute with
  | true =>
      rw [join_of_isAbsolute hq]
      exact text_ne_nil_of_isAbsolute hq
  | false =>
      obtain ⟨d, hjoin, -⟩ := join_text hp hq
      rw [hjoin]
      simp

@[simp] theorem inner_empty : inner ⟨[]⟩ = [] := rfl

theorem inner_append_slash (s t : Text) : inner ⟨s ++ '/' :: t⟩ = inner ⟨s⟩ ++ inner ⟨t⟩ := by
  rw [inner, segments_append_slash, List.filterMap_append]
  rfl

theorem opening_append_slash {s : Text} (hs : s ≠ []) (t : Text) :
    (opening ⟨s ++ '/' :: t⟩).1 = (opening ⟨s⟩).1 := by
  obtain ⟨c, s, rfl⟩ := List.exists_cons_of_ne_nil hs
  obtain ⟨u, us, hu⟩ := List.exists_cons_of_ne_nil (segments_ne_nil ⟨c :: s⟩)
  rw [opening_fst, opening_fst, segments_append_slash, hu]
  rfl

theorem components_join {p q : Path} (hp : p.text ≠ []) (hq : q.isAbsolute = false) :
    (p.join q).components = p.components ++ q.inner := by
  obtain ⟨d, hjoin, hd⟩ := join_text hp hq
  have hsame : (opening ⟨d ++ '/' :: q.text⟩).1 = p.opening.1 ∧ inner ⟨d⟩ = p.inner := by
    rcases hd with hd | hd
    · rw [← hd]
      exact ⟨opening_append_slash hp _, rfl⟩
    · have hp' : p = ⟨d ++ '/' :: []⟩ := congrArg Path.mk hd
      refine ⟨?_, by rw [hp', inner_append_slash, inner_empty, List.append_nil]⟩
      by_cases hempty : d = []
      · rw [hp', hempty, opening_fst, opening_fst]
        rfl
      · rw [hp', opening_append_slash hempty, opening_append_slash hempty]
  rw [hjoin, components_eq, components_eq p, inner_append_slash, hsame.1, hsame.2,
    List.append_assoc]

theorem segments_join (p q : Path) : ∃ above, (p.join q).segments = above ++ q.segments := by
  cases hq : q.isAbsolute with
  | true => exact ⟨[], by rw [join_of_isAbsolute hq, List.nil_append]⟩
  | false =>
      by_cases hp : p.text = []
      · exact ⟨[], by rw [join_of_empty hp, List.nil_append]⟩
      · obtain ⟨d, hjoin, -⟩ := join_text hp hq
        exact ⟨segments ⟨d⟩, by rw [hjoin, segments_append_slash]⟩

theorem join_equiv {p q r : Path} (h : q ≈ r) : p.join q ≈ p.join r := by
  have habs : q.isAbsolute = r.isAbsolute := by
    rw [Bool.eq_iff_iff, isAbsolute_iff, isAbsolute_iff, equiv_def.mp h]
  cases hq : q.isAbsolute with
  | true => rwa [join_of_isAbsolute hq, join_of_isAbsolute (habs ▸ hq)]
  | false =>
      by_cases hp : p.text = []
      · rwa [join_of_empty hp, join_of_empty hp]
      · rw [equiv_def, components_join hp hq, components_join hp (habs ▸ hq),
          inner_eq_of_equiv h]

/-- The path has neither a root nor an opening dot. -/
def IsInner (p : Path) : Prop := ∀ c ∈ p.components, c ≠ .root ∧ c ≠ .current

theorem IsInner.components_eq {p : Path} (h : p.IsInner) : p.components = p.inner := by
  rw [inner_eq_filter, List.filter_eq_self.mpr fun c hc => decide_eq_true (h c hc)]

theorem IsInner.isAbsolute {p : Path} (h : p.IsInner) : p.isAbsolute = false := by
  rw [Bool.eq_false_iff, ne_eq, isAbsolute_iff]
  exact fun hhead => (h _ (List.mem_of_head? hhead)).1 rfl

theorem components_join_of_isInner {dir q : Path} (hq : q.IsInner) :
    (dir.join q).components = dir.components ++ q.components := by
  by_cases hdir : dir.text = []
  · have hempty : dir = ⟨[]⟩ := congrArg Path.mk hdir
    rw [join_of_empty hdir, hempty]
    rfl
  · rw [components_join hdir hq.isAbsolute, hq.components_eq]

/-- Below one directory paths are the same only if they were so before. -/
theorem join_equiv_join_iff {dir p q : Path} (hp : p.IsInner) (hq : q.IsInner) :
    dir.join p ≈ dir.join q ↔ p ≈ q := by
  rw [equiv_def, equiv_def, components_join_of_isInner hp, components_join_of_isInner hq,
    List.append_right_inj]

/-! ### Taking a base away -/

theorem dropComponents_spec {segs rest : List Text} {prior : List Component}
    (h : dropComponents segs prior = some rest) :
    segs.filterMap Component.ofSegment = prior ++ rest.filterMap Component.ofSegment ∧
      rest ⊆ segs := by
  induction segs generalizing prior with
  | nil =>
      cases prior with
      | nil =>
          obtain rfl := Option.some.inj h
          exact ⟨rfl, List.Subset.refl _⟩
      | cons c prior => cases h
  | cons s segs ih =>
      cases prior with
      | nil =>
          obtain rfl := Option.some.inj h
          exact ⟨rfl, List.Subset.refl _⟩
      | cons c prior =>
          unfold dropComponents at h
          cases hs : Component.ofSegment s with
          | none =>
              simp only [hs] at h
              obtain ⟨heq, hsub⟩ := ih h
              exact ⟨by rw [List.filterMap_cons, hs, heq], List.subset_cons_of_subset _ hsub⟩
          | some d =>
              simp only [hs] at h
              by_cases hd : d = c
              · rw [if_pos hd] at h
                obtain ⟨heq, hsub⟩ := ih h
                refine ⟨?_, List.subset_cons_of_subset _ hsub⟩
                rw [List.filterMap_cons, hs, heq, hd]
                rfl
              · rw [if_neg hd] at h
                cases h

theorem dropComponents_complete {segs : List Text} {prior rest : List Component}
    (h : segs.filterMap Component.ofSegment = prior ++ rest) :
    ∃ left, dropComponents segs prior = some left := by
  induction segs generalizing prior with
  | nil =>
      obtain ⟨rfl, -⟩ := List.append_eq_nil_iff.mp h.symm
      exact ⟨[], rfl⟩
  | cons s segs ih =>
      cases prior with
      | nil => exact ⟨s :: segs, rfl⟩
      | cons c prior =>
          unfold dropComponents
          cases hs : Component.ofSegment s with
          | none =>
              rw [List.filterMap_cons_none hs] at h
              exact ih h
          | some d =>
              rw [List.filterMap_cons_some hs, List.cons_append] at h
              obtain ⟨rfl, hrest⟩ := List.cons.inj h
              obtain ⟨left, hleft⟩ := ih hrest
              exact ⟨left, (if_pos rfl).trans hleft⟩

/-! ### Writing segments -/

theorem dropBlankEnd_initial (segs : List Text) : dropBlankEnd segs <+: segs := by
  rw [dropBlankEnd, ← List.reverse_suffix, List.reverse_reverse]
  exact List.dropWhile_suffix _

/-- Whether an opening and segments are read back from the text that they are written as. -/
def ReadsBack (first : Option Component) (segs : List Text) : Prop :=
  (∀ s ∈ segs, '/' ∉ s) ∧ (first = some .root ∨ first = some .current ∨
    first = none ∧ ∀ s rest, segs = s :: rest → blank s = false)

theorem ReadsBack.of_prefix {first : Option Component} {segs front : List Text}
    (h : ReadsBack first segs) (hfront : front <+: segs) : ReadsBack first front := by
  obtain ⟨hslash, hopen⟩ := h
  refine ⟨fun s hs => hslash s (hfront.subset hs), hopen.imp_right (Or.imp_right ?_)⟩
  rintro ⟨rfl, hhead⟩
  refine ⟨rfl, fun s rest hs => ?_⟩
  obtain ⟨tail, rfl⟩ := hfront
  exact hhead s (rest ++ tail) (by rw [hs, List.cons_append])

theorem inner_joinSegments {segs : List Text} (h : ∀ s ∈ segs, '/' ∉ s) :
    inner ⟨joinSegments segs⟩ = segs.filterMap Component.ofSegment := by
  cases segs with
  | nil => rfl
  | cons s rest => rw [inner, segments_joinSegments (List.cons_ne_nil s rest) h]

theorem write_current {segs : List Text} (h : segs ≠ []) :
    write (some .current) segs = ['.'] ++ '/' :: joinSegments segs := by
  cases segs with
  | nil => exact absurd rfl h
  | cons s rest => rfl

theorem components_write {first : Option Component} {segs : List Text}
    (h : ReadsBack first segs) :
    components ⟨write first segs⟩ = first.toList ++ segs.filterMap Component.ofSegment := by
  obtain ⟨hslash, rfl | rfl | ⟨rfl, hhead⟩⟩ := h
  · rw [components_eq, opening_fst, ← inner_joinSegments hslash]
    exact congrArg (Component.root :: ·) (inner_append_slash [] (joinSegments segs))
  · cases segs with
    | nil => rfl
    | cons s rest =>
        rw [write_current (List.cons_ne_nil s rest), components_eq, inner_append_slash,
          opening_append_slash (List.cons_ne_nil '.' []), inner_joinSegments hslash]
        rfl
  · cases segs with
    | nil => rfl
    | cons s rest =>
        have hs := hhead s rest rfl
        have hsegs := segments_joinSegments (List.cons_ne_nil s rest) hslash
        have habs : (⟨joinSegments (s :: rest)⟩ : Path).opening.1 = none := by
          rcases opening_cases ⟨joinSegments (s :: rest)⟩ with
            ⟨t, ts, hroot, -⟩ | ⟨ts, hdot, -⟩ | ⟨ho, -, -⟩
          · rw [hsegs] at hroot
            rw [(List.cons.inj hroot).1] at hs
            cases hs
          · rw [hsegs] at hdot
            rw [(List.cons.inj hdot).1] at hs
            cases hs
          · rw [ho]
        rw [components_eq, write, habs, inner_joinSegments hslash]

theorem segments_write {first : Option Component} {above : List Text} {s : Text}
    (h : ReadsBack first (above ++ [s])) :
    ∃ above', segments ⟨write first (above ++ [s])⟩ = above' ++ [s] := by
  have hne : above ++ [s] ≠ [] := by simp
  have hsegs := segments_joinSegments hne h.1
  obtain ⟨-, rfl | rfl | ⟨rfl, -⟩⟩ := h
  · refine ⟨[] :: above, ?_⟩
    have happend := segments_append_slash [] (joinSegments (above ++ [s]))
    rw [hsegs] at happend
    exact happend
  · refine ⟨['.'] :: above, ?_⟩
    rw [write_current hne, segments_append_slash, hsegs]
    rfl
  · exact ⟨above, hsegs⟩

theorem slash_not_mem_opening {p : Path} {s : Text} (h : s ∈ p.opening.2) : '/' ∉ s := by
  have hs : s ∈ p.segments := by
    rcases p.opening_cases with ⟨t, ts, hsegs, ho⟩ | ⟨ts, hsegs, ho⟩ | ⟨ho, -, -⟩
    · rw [ho] at h
      exact hsegs ▸ List.mem_cons_of_mem _ h
    · rw [ho] at h
      exact hsegs ▸ List.mem_cons_of_mem _ h
    · rwa [ho] at h
  exact slash_not_mem_segment hs

theorem readsBack_opening (p : Path) : ReadsBack p.opening.1 (dropBlankEnd p.opening.2) := by
  refine ⟨fun s hs => slash_not_mem_opening (dropBlankEnd_subset _ hs), ?_⟩
  rcases p.opening_cases with ⟨t, ts, -, ho⟩ | ⟨ts, -, ho⟩ | ⟨ho, hroot, hdot⟩
  · exact Or.inl (by rw [ho])
  · exact Or.inr (Or.inl (by rw [ho]))
  · refine Or.inr (Or.inr ⟨by rw [ho], ?_⟩)
    intro s rest hs
    rw [ho] at hs
    obtain ⟨tail, htail⟩ := dropBlankEnd_initial p.segments
    rw [hs, List.cons_append] at htail
    cases hblank : blank s with
    | false => rfl
    | true =>
        rcases blank_eq_true_iff.mp hblank with rfl | rfl
        · cases hrest : rest ++ tail with
          | nil =>
              rw [← htail, hrest] at hs
              cases hs
          | cons t ts => exact absurd rfl (hroot _ _ htail.symm (by simp [hrest]))
        · exact absurd rfl (hdot _ _ htail.symm)

theorem exists_parent {p : Path} {front : List Component} {name : Text}
    (h : p.components = front ++ [.normal name]) :
    ∃ dir, p.parent = some dir ∧ dir.components = front := by
  have hread := p.readsBack_opening
  have hcomp : front ++ [.normal name] =
      p.opening.1.toList ++ (dropBlankEnd p.opening.2).filterMap Component.ofSegment := by
    rw [← h, filterMap_dropBlankEnd, filterMap_opening, ← components_eq]
  rcases dropBlankEnd_cases p.opening.2 with hnil | ⟨above, s, hs, hblank⟩
  · have hlast := congrArg List.getLast? hcomp
    rw [hnil, List.getLast?_concat] at hlast
    rcases p.opening_fst_cases with ho | ho | ho <;> simp [ho] at hlast
  · have hdrop : p.opening.2.reverse.dropWhile blank = s :: above.reverse := by
      simpa [dropBlankEnd, List.reverse_eq_iff] using hs
    refine ⟨⟨write p.opening.1 (dropBlankEnd above)⟩, ?_, ?_⟩
    · unfold parent
      simp only [hdrop]
      rfl
    · rw [hs] at hread hcomp
      have hfront : dropBlankEnd above <+: above ++ [s] :=
        (dropBlankEnd_initial above).trans (List.prefix_append above [s])
      rw [List.filterMap_append, List.filterMap_cons_some (ofSegment_of_not_blank hblank),
        List.filterMap_nil, ← List.append_assoc] at hcomp
      rw [components_write (hread.of_prefix hfront), filterMap_dropBlankEnd]
      exact (List.append_inj_left' hcomp rfl).symm

theorem readsBack_trimBlank {segs : List Text} (h : ∀ s ∈ segs, '/' ∉ s) :
    ReadsBack none (trimBlank segs) := by
  refine ⟨fun s hs => h s (List.dropWhile_subset _ (dropBlankEnd_subset _ hs)),
    Or.inr (Or.inr ⟨rfl, ?_⟩)⟩
  intro s rest hs
  obtain ⟨tail, htail⟩ := dropBlankEnd_initial (segs.dropWhile blank)
  have hnot := List.head?_dropWhile_not blank segs
  rw [trimBlank] at hs
  rw [← htail, hs] at hnot
  simpa using hnot

/-- What is left below a base is an opening and segments; together with the base they name what
the path names. -/
theorem stripPrefix?_cases {p base q : Path} (h : p.stripPrefix? base = some q) :
    ∃ first segs, q = ⟨write first (dropBlankEnd segs)⟩ ∧ ReadsBack first (dropBlankEnd segs) ∧
      p.components = base.components ++ (first.toList ++ segs.filterMap Component.ofSegment) := by
  have hdrop : ∀ prior rest, dropComponents p.opening.2 prior = some rest →
      ReadsBack none (dropBlankEnd (rest.dropWhile blank)) ∧ p.inner =
        prior ++ (rest.dropWhile blank).filterMap Component.ofSegment := by
    intro prior rest hrest
    obtain ⟨heq, hsub⟩ := dropComponents_spec hrest
    rw [filterMap_opening] at heq
    exact ⟨readsBack_trimBlank fun s hs => slash_not_mem_opening (hsub hs),
      by rw [heq, filterMap_dropWhile_blank]⟩
  rw [components_eq]
  unfold stripPrefix? at h
  cases hb : base.components with
  | nil =>
      simp only [hb, Option.some.injEq] at h
      exact ⟨p.opening.1, p.opening.2, h.symm, p.readsBack_opening,
        by rw [filterMap_opening, List.nil_append]⟩
  | cons c prior =>
      cases hfirst : p.opening.1 with
      | none =>
          simp only [hb, hfirst] at h
          obtain ⟨rest, hrest, rfl⟩ := Option.map_eq_some_iff.mp h
          obtain ⟨hread, heq⟩ := hdrop _ _ hrest
          exact ⟨none, _, rfl, hread, heq⟩
      | some d =>
          simp only [hb, hfirst] at h
          by_cases hd : d = c
          · rw [if_pos hd] at h
            obtain ⟨rest, hrest, rfl⟩ := Option.map_eq_some_iff.mp h
            obtain ⟨hread, heq⟩ := hdrop _ _ hrest
            exact ⟨none, _, rfl, hread, by rw [heq, hd]; rfl⟩
          · rw [if_neg hd] at h
            cases h

theorem components_stripPrefix? {p base q : Path} (h : p.stripPrefix? base = some q) :
    p.components = base.components ++ q.components := by
  obtain ⟨first, segs, rfl, hread, heq⟩ := stripPrefix?_cases h
  rw [heq, components_write hread, filterMap_dropBlankEnd]

theorem stripPrefix?_eq_none_iff {p base : Path} :
    p.stripPrefix? base = none ↔ ¬ base.components <+: p.components := by
  constructor
  · rintro h ⟨rest, hrest⟩
    rw [components_eq p] at hrest
    have hdrop : ∀ prior rest, p.inner = prior ++ rest →
        ∃ left, dropComponents p.opening.2 prior = some left := fun prior rest hinner =>
      dropComponents_complete ((filterMap_opening p).trans hinner)
    unfold stripPrefix? at h
    cases hb : base.components with
    | nil => simp [hb] at h
    | cons c prior =>
        rw [hb] at hrest
        cases hfirst : p.opening.1 with
        | none =>
            rw [hfirst] at hrest
            obtain ⟨left, hleft⟩ := hdrop _ _ hrest.symm
            simp [hb, hfirst, hleft] at h
        | some d =>
            rw [hfirst] at hrest
            obtain ⟨rfl, hinner⟩ := List.cons.inj hrest
            obtain ⟨left, hleft⟩ := hdrop _ _ hinner.symm
            simp [hb, hfirst, hleft] at h
  · intro h
    cases hq : p.stripPrefix? base with
    | none => rfl
    | some q => exact absurd ⟨q.components, (components_stripPrefix? hq).symm⟩ h

theorem segments_stripPrefix? {p base q : Path} (h : p.stripPrefix? base = some q) {name : Text}
    (hname : q.fileName = some name) :
    ∃ above, q.segments = above ++ [name] ∧ blank name = false ∧ name ≠ ['.', '.'] := by
  obtain ⟨first, segs, rfl, hread, -⟩ := stripPrefix?_cases h
  rcases dropBlankEnd_cases segs with hnil | ⟨above, s, hs, hblank⟩
  · have hcomp := components_write hread
    rw [fileName, hcomp, hnil] at hname
    obtain ⟨-, rfl | rfl | ⟨rfl, -⟩⟩ := hread <;> simp at hname
  · rw [hs] at hread hname ⊢
    obtain ⟨above', habove⟩ := segments_write hread
    obtain ⟨front, hfront, -⟩ := components_of_segments habove habove hblank hblank
    by_cases hup : s = ['.', '.']
    · rw [fileName, hfront, List.getLast?_concat, Component.ofName, if_pos hup] at hname
      simp at hname
    · rw [fileName_of_segments habove hblank hup] at hname
      obtain rfl := Option.some.inj hname
      exact ⟨above', habove, hblank, hup⟩

/-! ### Taking away what was joined -/

/-- The path in its own words, without blank segments at its ends. -/
def trimmed (p : Path) : Path := ⟨joinSegments (trimBlank p.segments)⟩

theorem opening_of_absolute {p : Path} (h : p.isAbsolute = true) :
    p.opening.1 = some .root ∧ p.segments = [] :: p.opening.2 := by
  have hroot : p.opening.1 = some .root := by rw [opening_fst, if_pos h]
  rcases p.opening_cases with ⟨s, rest, hsegs, ho⟩ | ⟨rest, -, ho⟩ | ⟨ho, -, -⟩
  · exact ⟨hroot, by rw [hsegs, ho]⟩
  · simp [ho] at hroot
  · simp [ho] at hroot

/-- Segments are dropped up to the components that they name, and blank ones behind these. -/
theorem dropComponents_append (upper lower : List Text) :
    (dropComponents (upper ++ lower) (upper.filterMap Component.ofSegment)).map
      (List.dropWhile blank) = some (lower.dropWhile blank) := by
  induction upper with
  | nil => simp [dropComponents]
  | cons s upper ih =>
      cases hs : blank s with
      | false =>
          rw [List.filterMap_cons_some (ofSegment_of_not_blank hs), List.cons_append,
            dropComponents, ofSegment_of_not_blank hs]
          simpa using ih
      | true =>
          rw [List.filterMap_cons_none (ofSegment_of_blank hs), List.cons_append]
          cases hprior : upper.filterMap Component.ofSegment with
          | nil =>
              rw [hprior] at ih
              simpa [dropComponents, hs] using ih
          | cons c prior =>
              rw [hprior] at ih
              rw [dropComponents, ofSegment_of_blank hs]
              exact ih

theorem stripPrefix?_join {root p : Path} (hroot : root.isAbsolute = true)
    (hp : p.isAbsolute = false) : (root.join p).stripPrefix? root = some p.trimmed := by
  have hne := text_ne_nil_of_isAbsolute hroot
  have habs : (root.join p).isAbsolute = true := by
    rw [isAbsolute_iff, components_join hne hp, components_of_absolute hroot]
    rfl
  obtain ⟨hfirst, hsegs⟩ := opening_of_absolute habs
  obtain ⟨d, hjoin, hd⟩ := join_text hne hp
  have hinner : root.inner = inner ⟨d⟩ := by
    rcases hd with hd | hd
    · rw [← hd]
    · have hslash : root = ⟨d ++ '/' :: []⟩ := congrArg Path.mk hd
      rw [hslash, inner_append_slash, inner_empty, List.append_nil]
  obtain ⟨s, upper, hupper⟩ := List.exists_cons_of_ne_nil (segments_ne_nil ⟨d⟩)
  -- The first segment is the empty one before the slash, and the root names the others.
  have hboth : [] :: (root.join p).opening.2 = s :: (upper ++ p.segments) := by
    rw [← hsegs, hjoin, segments_append_slash, hupper, List.cons_append]
  obtain ⟨rfl, hrest⟩ := List.cons.inj hboth
  have hroot' : root.components = .root :: upper.filterMap Component.ofSegment := by
    rw [components_of_absolute hroot, hinner, inner, hupper]
    rfl
  have hdrop := dropComponents_append upper p.segments
  unfold stripPrefix?
  simp only [hroot', hfirst, hrest, if_true]
  cases hleft : dropComponents (upper ++ p.segments) (upper.filterMap Component.ofSegment) with
  | none => simp [hleft] at hdrop
  | some left =>
      rw [hleft, Option.map_some, Option.some.injEq] at hdrop
      simp [trimmed, trimBlank, hdrop]

end Path
end NinjaPlan
