import NinjaPlan.Path.Name
import NinjaPlan.Proofs.Path.Components

/-! # Exchanging an extension

`withExtension` edits the end of the text.  On a path whose last segment is a file name it
exchanges that segment for `changeExtension` of it and leaves the segments above alone
(`segments_withExtension`), so that only the last component changes
(`components_withExtension`), and the same one below any directory (`join_withExtension`). -/

namespace NinjaPlan.Path

/-! ### Splitting a name -/

theorem splitName_cases (name : Text) :
    splitName name = (name, none) ∨ ∃ stem ext, name = stem ++ '.' :: ext ∧ stem ≠ [] ∧
      '.' ∉ ext ∧ splitName name = (stem, some ext) := by
  unfold splitName
  split
  · next last before rest hrev =>
      have hpieces : Text.pieces '.' name = (before :: rest).reverse ++ [last] := by
        rw [← List.reverse_reverse (Text.pieces '.' name), hrev, List.reverse_cons]
      have hname := Text.intercalate_pieces '.' name
      rw [hpieces, Text.intercalate_concat '.' (by simp)] at hname
      have hlast : last ∈ Text.pieces '.' name := by simp [hpieces]
      dsimp only
      split
      · exact Or.inl rfl
      · next hne =>
          exact Or.inr ⟨_, last, hname.symm, hne, Text.not_mem_of_mem_pieces hlast, rfl⟩
  · exact Or.inl rfl

theorem splitName_append {stem ext : Text} (hstem : stem ≠ []) (hext : '.' ∉ ext) :
    splitName (stem ++ '.' :: ext) = (stem, some ext) := by
  have hpieces : Text.pieces '.' (stem ++ '.' :: ext) = Text.pieces '.' stem ++ [ext] := by
    rw [Text.pieces_eq_splitOn, List.splitOn_append_cons_self, List.splitOn_eq_singleton hext,
      Text.pieces_eq_splitOn]
  obtain ⟨before, rest, hrev⟩ : ∃ before rest, (Text.pieces '.' stem).reverse = before :: rest :=
    List.exists_cons_of_ne_nil (by simp [Text.pieces_ne_nil])
  have hjoin : ['.'].intercalate (before :: rest).reverse = stem := by
    rw [← hrev, List.reverse_reverse, Text.intercalate_pieces]
  unfold splitName
  rw [hpieces, List.reverse_append, hrev, List.reverse_singleton, List.singleton_append]
  dsimp only
  rw [hjoin, if_neg hstem]

theorem fileStem_of_components {p : Path} {front : List Component} {name : Text}
    (h : p.components = front ++ [.normal name]) : p.fileStem = some (splitName name).1 := by
  rw [fileStem, fileName, h, List.getLast?_concat]
  rfl

/-! ### Paths whose text ends in a name -/

/-- The text of the segments above the last one. -/
def aboveText (above : List Text) : Text := above.flatMap (· ++ ['/'])

theorem segments_aboveText {above : List Text} {s : Text} (h : ∀ t ∈ above, '/' ∉ t)
    (hs : '/' ∉ s) : segments ⟨aboveText above ++ s⟩ = above ++ [s] := by
  induction above with
  | nil =>
      rw [segments_eq_splitOn]
      exact List.splitOn_eq_singleton hs
  | cons t above ih =>
      have htext : aboveText (t :: above) ++ s = t ++ '/' :: (aboveText above ++ s) := by
        simp [aboveText]
      rw [htext, segments_append_slash, ih fun u hu => h u (List.mem_cons_of_mem _ hu),
        segments_eq_splitOn, List.splitOn_eq_singleton (h t List.mem_cons_self)]
      rfl

theorem text_eq_aboveText {p : Path} {above : List Text} {s : Text}
    (h : p.segments = above ++ [s]) : p = ⟨aboveText above ++ s⟩ := by
  have hjoin : ∀ above : List Text, joinSegments (above ++ [s]) = aboveText above ++ s := by
    intro above
    induction above with
    | nil => simp [joinSegments, aboveText]
    | cons t above ih =>
        rw [joinSegments] at ih ⊢
        rw [List.cons_append, List.intercalate_cons_of_ne_nil (by simp), ih]
        simp [aboveText]
  have htext : joinSegments p.segments = p.text := Text.intercalate_pieces '/' p.text
  rw [h, hjoin] at htext
  exact congrArg Path.mk htext.symm

theorem lastSegment_of_segments {p : Path} {above : List Text} {s : Text}
    (h : p.segments = above ++ [s]) (hs : blank s = false) :
    p.lastSegment = (aboveText above, s) := by
  unfold lastSegment
  rw [h, List.reverse_append, List.reverse_singleton, List.singleton_append,
    List.dropWhile_cons_of_neg (by simp [hs])]
  simp [aboveText]

/-! ### Exchanging -/

/-- A file name with its extension exchanged for `ext`.  A name whose stem is a dot is `..` when
its extension is cut off, and so has no stem to put `ext` behind. -/
def changeExtension (name ext : Text) : Text :=
  match splitName name with
  | (stem, none) => stem ++ '.' :: ext
  | (stem, some _) => if stem = ['.'] then ['.', '.'] else stem ++ '.' :: ext

theorem blank_append_dot {stem ext : Text} (h : stem ≠ []) :
    blank (stem ++ '.' :: ext) = false := by
  obtain ⟨c, cs, rfl⟩ := List.exists_cons_of_ne_nil h
  simp [blank]

theorem blank_changeExtension {name : Text} (h : name ≠ []) (ext : Text) :
    blank (changeExtension name ext) = false := by
  unfold changeExtension
  rcases splitName_cases name with hsplit | ⟨stem, old, -, hstem, -, hsplit⟩
  · rw [hsplit]
    exact blank_append_dot h
  · rw [hsplit]
    dsimp only
    split
    · rfl
    · exact blank_append_dot hstem

/-- The stem stays and the extension is the new one, unless the name becomes `..`. -/
theorem splitName_changeExtension {name ext : Text} (h : name ≠ []) (hext : '.' ∉ ext) :
    changeExtension name ext = ['.', '.'] ∨
      splitName (changeExtension name ext) = ((splitName name).1, some ext) := by
  unfold changeExtension
  rcases splitName_cases name with hsplit | ⟨stem, old, -, hstem, -, hsplit⟩
  · rw [hsplit]
    exact Or.inr (splitName_append h hext)
  · rw [hsplit]
    dsimp only
    split
    · exact Or.inl rfl
    · exact Or.inr (splitName_append hstem hext)

/-- What a name becomes is decided by its stem. -/
theorem changeExtension_eq {name : Text} (h : blank name = false) (ext : Text) :
    changeExtension name ext =
      if (splitName name).1 = ['.'] then ['.', '.'] else (splitName name).1 ++ '.' :: ext := by
  unfold changeExtension
  rcases splitName_cases name with hsplit | ⟨stem, old, -, -, -, hsplit⟩
  · have hdot : name ≠ ['.'] := by
      rintro rfl
      cases h
    rw [hsplit]
    exact (if_neg hdot).symm
  · rw [hsplit]

theorem slash_not_mem_changeExtension {name ext : Text} (hname : '/' ∉ name) (hext : '/' ∉ ext) :
    '/' ∉ changeExtension name ext := by
  have happend : ∀ stem : Text, '/' ∉ stem → '/' ∉ stem ++ '.' :: ext := by
    intro stem hstem hmem
    rcases List.mem_append.mp hmem with hmem | hmem
    · exact hstem hmem
    · rcases List.mem_cons.mp hmem with hdot | hmem
      · exact absurd hdot (by decide)
      · exact hext hmem
  unfold changeExtension
  rcases splitName_cases name with hsplit | ⟨stem, old, rfl, -, -, hsplit⟩
  · rw [hsplit]
    exact happend name hname
  · rw [hsplit]
    dsimp only
    split
    · decide
    · exact happend stem fun hmem => hname (List.mem_append_left _ hmem)

theorem setExtension_of_segments {p : Path} {above : List Text} {s : Text}
    (h : p.segments = above ++ [s]) (hs : blank s = false) (hup : s ≠ ['.', '.']) (ext : Text) :
    p.setExtension ext = ⟨aboveText above ++ ((splitName s).1 ++ '.' :: ext)⟩ := by
  have hstem : p.fileStem = some (splitName s).1 := by
    rw [fileStem, fileName_of_segments h hs hup]
    rfl
  rw [setExtension, hstem, lastSegment_of_segments h hs, ← List.append_assoc]

theorem setExtension_of_parent {p : Path} {above : List Text}
    (h : p.segments = above ++ [['.', '.']]) (ext : Text) : p.setExtension ext = p := by
  obtain ⟨front, hfront, -⟩ := components_of_segments h h rfl rfl
  have hname : p.fileName = none := by
    rw [fileName, hfront, List.getLast?_concat, Component.ofName, if_pos rfl]
  rw [setExtension, fileStem, hname]
  rfl

theorem cutExtension_of_segments {p : Path} {above : List Text} {stem old : Text}
    (h : p.segments = above ++ [stem ++ '.' :: old]) (hstem : stem ≠ []) (hold : '.' ∉ old)
    (hup : stem ++ '.' :: old ≠ ['.', '.']) :
    p.cutExtension = ⟨aboveText above ++ (stem ++ ['.'])⟩ := by
  have hext : p.extension = some old := by
    rw [extension, fileName_of_segments h (blank_append_dot hstem) hup]
    simp [splitName_append hstem hold]
  have htext : p.text = (aboveText above ++ (stem ++ ['.'])) ++ old := by
    rw [text_eq_aboveText h]
    simp
  have hlength : p.text.length - old.length = (aboveText above ++ (stem ++ ['.'])).length := by
    rw [htext, List.length_append]
    omega
  rw [cutExtension, hext]
  dsimp only
  rw [hlength, htext, List.take_left' rfl]

theorem withExtension_of_segments {p : Path} {above : List Text} {name : Text}
    (h : p.segments = above ++ [name]) (hname : blank name = false) (hup : name ≠ ['.', '.'])
    (ext : Text) : p.withExtension ext = ⟨aboveText above ++ changeExtension name ext⟩ := by
  unfold withExtension changeExtension
  rcases splitName_cases name with hsplit | ⟨stem, old, rfl, hstem, hold, hsplit⟩
  · have hext : p.extension = none := by
      rw [extension, fileName_of_segments h hname hup]
      simp [hsplit]
    rw [cutExtension, hext, hsplit]
    dsimp only
    rw [setExtension_of_segments h hname hup, hsplit]
  · have hsegs : segments ⟨aboveText above ++ (stem ++ ['.'])⟩ = above ++ [stem ++ ['.']] := by
      have hslash : ∀ s ∈ above ++ [stem ++ '.' :: old], '/' ∉ s :=
        fun s hs => slash_not_mem_segment (h ▸ hs)
      have hlast := hslash _ (List.mem_append_right _ List.mem_cons_self)
      refine segments_aboveText (fun t ht => hslash t (List.mem_append_left _ ht)) ?_
      intro hmem
      rcases List.mem_append.mp hmem with hmem | hmem
      · exact hlast (List.mem_append_left _ hmem)
      · simp at hmem
    rw [cutExtension_of_segments h hstem hold hup, hsplit]
    dsimp only
    by_cases hdot : stem = ['.']
    · rw [if_pos hdot]
      subst hdot
      exact setExtension_of_parent hsegs ext
    · have hup' : stem ++ ['.'] ≠ ['.', '.'] := fun heq =>
        hdot (List.append_inj_left' heq rfl)
      rw [if_neg hdot, setExtension_of_segments hsegs (blank_append_dot hstem) hup',
        splitName_append hstem List.not_mem_nil]

theorem segments_withExtension {p : Path} {above : List Text} {name ext : Text}
    (h : p.segments = above ++ [name]) (hname : blank name = false) (hup : name ≠ ['.', '.'])
    (hext : '/' ∉ ext) :
    (p.withExtension ext).segments = above ++ [changeExtension name ext] := by
  have hslash : ∀ s ∈ above ++ [name], '/' ∉ s := fun s hs => slash_not_mem_segment (h ▸ hs)
  rw [withExtension_of_segments h hname hup]
  refine segments_aboveText (fun t ht => hslash t (List.mem_append_left _ ht)) ?_
  exact slash_not_mem_changeExtension (hslash name (List.mem_append_right _ List.mem_cons_self)) hext

theorem components_withExtension {p : Path} {above : List Text} {name ext : Text}
    (h : p.segments = above ++ [name]) (hname : blank name = false) (hup : name ≠ ['.', '.'])
    (hext : '/' ∉ ext) :
    ∃ front, p.components = front ++ [.normal name] ∧
      (p.withExtension ext).components =
        front ++ [Component.ofName (changeExtension name ext)] := by
  have hne : name ≠ [] := by
    rintro rfl
    cases hname
  obtain ⟨front, hfront, hfront'⟩ := components_of_segments h
    (segments_withExtension h hname hup hext) hname (blank_changeExtension hne ext)
  rw [Component.ofName, if_neg hup] at hfront
  exact ⟨front, hfront, hfront'⟩

/-! ### Exchanging below a directory -/

section join

variable {p : Path} {above : List Text} {name : Text} (h : p.segments = above ++ [name])
  (hname : blank name = false) (hup : name ≠ ['.', '.'])
include h hname hup

theorem isAbsolute_withExtension {ext : Text} (hext : '/' ∉ ext) :
    (p.withExtension ext).isAbsolute = p.isAbsolute := by
  rw [Bool.eq_iff_iff, isAbsolute_iff_segments, isAbsolute_iff_segments,
    segments_withExtension h hname hup hext, h]
  cases above <;> simp

/-- Whole segments in front stay as they are. -/
theorem withExtension_append_slash (d ext : Text) :
    withExtension ⟨d ++ '/' :: p.text⟩ ext = ⟨d ++ '/' :: (p.withExtension ext).text⟩ := by
  have hsegs : segments ⟨d ++ '/' :: p.text⟩ = (segments ⟨d⟩ ++ above) ++ [name] := by
    rw [segments_append_slash, List.append_assoc]
    exact congrArg (segments ⟨d⟩ ++ ·) h
  have hd : d ++ ['/'] = aboveText (segments ⟨d⟩) := by
    have hlast := text_eq_aboveText (segments_append_slash d [])
    simpa using hlast
  have habove : aboveText (segments ⟨d⟩ ++ above) = d ++ '/' :: aboveText above := by
    rw [aboveText, List.flatMap_append, ← aboveText, ← hd, List.append_assoc]
    rfl
  rw [withExtension_of_segments hsegs hname hup, withExtension_of_segments h hname hup, habove]
  simp

/-- It does not matter whether a path is put below a directory before its extension is exchanged
or afterwards. -/
theorem join_withExtension (hrel : p.isAbsolute = false) (dir : Path) {ext : Text}
    (hext : '/' ∉ ext) : (dir.join p).withExtension ext = dir.join (p.withExtension ext) := by
  by_cases hdir : dir.text = []
  · rw [join_of_empty hdir, join_of_empty hdir]
  · obtain ⟨d, -, hjoin⟩ := exists_join_text hdir
    rw [hjoin p hrel, hjoin _ ((isAbsolute_withExtension h hname hup hext).trans hrel),
      withExtension_append_slash h hname hup]

end join

end NinjaPlan.Path
