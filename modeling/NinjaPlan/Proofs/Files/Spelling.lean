import NinjaPlan.Proofs.Files.Overwrite
import NinjaPlan.Proofs.Path.Spelling

/-! # Spellings of one path

Blank segments and dots say nothing about where a path leads: whoever goes along only the others,
its solid segments, comes to the same place (`walk_solid`).  So paths that are the same lead to the
same directory if they lead to directories at all (`directoryAt_unique`), and if one does, so does
every other that is short enough (`directoryAt_of_equiv`).  A path that has one name more leads where this name leads
in the directory of the other (`follow_of_directoryAt_concat`). -/

namespace NinjaPlan

namespace Utf8

theorem eq_slash_of_mem_encodeChar {c : Char} (h : slash ∈ encodeChar c) : c = '/' := by
  have hbyte : ∀ n : Nat, slash = n.toUInt8 → n % 256 = 47 := fun n hn => by
    have hnat := congrArg UInt8.toNat hn
    simpa [slash] using hnat.symm
  have hlt := toNat_lt c
  suffices hslash : c.toNat = 47 by rw [← Char.ofNat_toNat c, hslash]
  -- Bytes of longer encodings are at least 0x80.
  have hbytes : ∃ n : Nat, n % 256 = 47 ∧ (n = c.toNat ∧ n < 0x80 ∨ 0x80 ≤ n ∧ n < 0x100) := by
    unfold encodeChar at h
    dsimp only at h
    split_ifs at h <;> simp only [List.mem_cons, List.not_mem_nil, or_false] at h
    · exact ⟨_, hbyte _ h, by omega⟩
    · rcases h with h | h <;> exact ⟨_, hbyte _ h, by omega⟩
    · rcases h with h | h | h <;> exact ⟨_, hbyte _ h, by omega⟩
    · rcases h with h | h | h | h <;> exact ⟨_, hbyte _ h, by omega⟩
  obtain ⟨n, hn, hcase⟩ := hbytes
  omega

theorem head?_encode_eq_slash_iff {s : Text} :
    (encode s).head? = some slash ↔ s.head? = some '/' := by
  cases s with
  | nil => simp
  | cons c s =>
      have hne : encodeChar c ≠ [] := by
        unfold encodeChar
        dsimp only
        split_ifs <;> exact List.cons_ne_nil _ _
      have hhead : (encode (c :: s)).head? = (encodeChar c).head? :=
        List.head?_append_of_ne_nil _ hne
      rw [hhead, List.head?_cons, Option.some.injEq]
      constructor
      · exact fun h => eq_slash_of_mem_encodeChar (List.mem_of_head? h)
      · rintro rfl
        rfl

theorem slash_not_mem_encode {s : Text} (h : '/' ∉ s) : slash ∉ encode s := by
  intro hmem
  obtain ⟨c, hc, hbyte⟩ := List.mem_flatMap.mp hmem
  rw [eq_slash_of_mem_encodeChar hbyte] at hc
  exact h hc

theorem encode_intercalate (pieces : List Text) :
    encode (['/'].intercalate pieces) = [slash].intercalate (pieces.map encode) := by
  induction pieces with
  | nil => rfl
  | cons piece pieces ih =>
      cases pieces with
      | nil => simp
      | cons next pieces =>
          rw [List.map_cons, List.map_cons, List.intercalate_cons_cons, List.intercalate_cons_cons,
            encode_append, encode_append, ih]
          rfl

theorem pieces_encode (s : Text) :
    Text.pieces slash (encode s) = (Text.pieces '/' s).map encode := by
  have hslash : ∀ piece ∈ (Text.pieces '/' s).map encode, slash ∉ piece := by
    intro piece hpiece
    obtain ⟨p, hp, rfl⟩ := List.mem_map.mp hpiece
    exact slash_not_mem_encode (Text.not_mem_of_mem_pieces hp)
  have hne : (Text.pieces '/' s).map encode ≠ [] := by
    simpa using Text.pieces_ne_nil '/' s
  conv => lhs; rw [← Text.intercalate_pieces '/' s, encode_intercalate, Text.pieces_eq_splitOn]
  exact List.splitOn_intercalate slash hslash hne

end Utf8

namespace FileTree

variable {t : FileTree} {here dir : Location}

/-- The segments that say something. -/
def solid (segments : List Name) : List Name := segments.filter fun s => s != [] && s != [dot]

/-- The walk, with what is left of the path made solid. -/
def Walk.solid : Walk → Walk
  | .found loc => .found loc
  | .missing above name rest => .missing above name (FileTree.solid rest)
  | .link above target rest => .link above target (FileTree.solid rest)
  | .refused e => .refused e

/-- Blank segments and dots do nothing but refuse. -/
theorem walk_solid {segments : List Name} (h : ∀ e, t.walk here segments ≠ .refused e) :
    t.walk here (solid segments) = (t.walk here segments).solid := by
  induction segments generalizing here with
  | nil => rfl
  | cons s segments ih =>
      rw [walk_cons] at h ⊢
      by_cases hs : s = [] ∨ s = [dot]
      · have hdrop : solid (s :: segments) = solid segments := by
          rcases hs with rfl | rfl <;> rfl
        have hturn : (∃ e, t.turn here s = .refused e) ∨ t.turn here s = .on here := by
          unfold turn
          split_ifs <;> simp_all
        rcases hturn with ⟨e, hturn⟩ | hturn
        · rw [hturn] at h
          exact absurd rfl (h e)
        · rw [hturn] at h ⊢
          rw [hdrop]
          exact ih h
      · have hkeep : solid (s :: segments) = s :: solid segments := by
          rw [not_or] at hs
          simp [solid, hs]
        rw [hkeep, walk_cons]
        cases hturn : t.turn here s with
        | on loc =>
            rw [hturn] at h
            exact ih h
        | missing | link | refused => rfl

/-- Blank segments and dots refuse nothing on the way to a directory or to a link. -/
theorem walk_ne_refused {segments : List Name}
    (h : ∀ e, t.walk here (solid segments) ≠ .refused e)
    (hend : ∀ loc, t.walk here (solid segments) = .found loc → t.get? loc = some .directory)
    (e : OsError) : t.walk here segments ≠ .refused e := by
  induction segments generalizing here with
  | nil => simp [walk]
  | cons s segments ih =>
      by_cases hs : s = [] ∨ s = [dot]
      · have hdrop : solid (s :: segments) = solid segments := by
          rcases hs with rfl | rfl <;> rfl
        rw [hdrop] at h hend
        have hhere : t.get? here = some .directory := by
          cases hrest : solid segments with
          | nil => exact hend here (by rw [hrest]; rfl)
          | cons s' rest =>
              by_contra hno
              obtain ⟨e', he'⟩ := walk_of_not_directory hno s' rest
              exact h e' (by rw [hrest, he'])
        have hturn : t.turn here s = .on here := by simp [turn, hhere, hs]
        rw [walk_cons, hturn]
        exact ih h hend
      · have hkeep : solid (s :: segments) = s :: solid segments := by
          rw [not_or] at hs
          simp [solid, hs]
        rw [hkeep] at h hend
        rw [walk_cons]
        cases hturn : t.turn here s with
        | on loc =>
            have hon : t.walk here (s :: solid segments) = t.walk loc (solid segments) := by
              rw [walk_cons, hturn]
            rw [hon] at h hend
            exact ih h hend
        | refused e' => exact absurd (by rw [walk_cons, hturn]) (h e')
        | missing | link => simp

theorem walk_of_solid {segments others : List Name} (hsame : solid segments = solid others)
    (h : t.walk here segments = .found dir) (hdir : t.get? dir = some .directory) :
    t.walk here others = .found dir := by
  have hsolid : t.walk here (solid others) = .found dir := by
    rw [← hsame, walk_solid (by simp [h]), h]
    rfl
  have hclear : ∀ e, t.walk here others ≠ .refused e := walk_ne_refused (by simp [hsolid])
    fun loc hloc => Walk.found.inj (hsolid.symm.trans hloc) ▸ hdir
  have hwalk := walk_solid hclear
  rw [hsolid] at hwalk
  cases hv : t.walk here others with
  | found loc =>
      rw [hv] at hwalk
      rw [Walk.found.inj hwalk]
  | missing | link | refused => simp [hv, Walk.solid] at hwalk

/-- What leads to a directory leads there with other blank segments as well. -/
theorem follow_of_solid {links : Nat} {segments others : List Name}
    (hsame : solid segments = solid others)
    (h : t.follow links here segments = .ok (.found dir)) (hdir : t.get? dir = some .directory) :
    t.follow links here others = .ok (.found dir) := by
  induction links using Nat.strongRecOn generalizing here segments others with
  | ind links ih =>
      rcases follow_cases h with hw | ⟨left, above, target, rest, rfl, hw, hleft⟩
      · exact follow_of_found (walk_of_solid hsame hw hdir) links
      · have hsolid : t.walk here (solid others) = .link above target (solid rest) := by
          rw [← hsame, walk_solid (by simp [hw]), hw]
          rfl
        have hclear : ∀ e, t.walk here others ≠ .refused e :=
          walk_ne_refused (by simp [hsolid]) fun loc hloc => nomatch hsolid.symm.trans hloc
        have hwalk := walk_solid hclear
        rw [hsolid] at hwalk
        cases hv : t.walk here others with
        | link above' target' rest' =>
            rw [hv] at hwalk
            obtain ⟨rfl, rfl, hrest⟩ := Walk.link.inj hwalk
            rw [follow_of_link hv]
            refine ih left (Nat.lt_succ_self left) ?_ hleft
            simp only [solid, List.filter_append] at hrest ⊢
            rw [hrest]
        | missing | found | refused => simp [hv, Walk.solid] at hwalk

/-- Paths of the same solid segments lead to one place if both lead anywhere. -/
theorem follow_unique {links more : Nat} {segments others : List Name} {other : Location}
    (hsame : solid segments = solid others)
    (h : t.follow links here segments = .ok (.found dir))
    (g : t.follow more here others = .ok (.found other)) : dir = other := by
  induction links using Nat.strongRecOn generalizing more here segments others with
  | ind links ih =>
      have hwalks : ∀ {w v : Walk}, t.walk here segments = w → t.walk here others = v →
          (∀ e, w ≠ .refused e) → (∀ e, v ≠ .refused e) → w.solid = v.solid := by
        rintro w v rfl rfl hw hv
        rw [← walk_solid hw, ← walk_solid hv, hsame]
      rcases follow_cases h with hw | ⟨left, above, target, rest, rfl, hw, hleft⟩ <;>
        rcases follow_cases g with hv | ⟨least, above', target', rest', rfl, hv, hleast⟩ <;>
          have hwalk := hwalks hw hv (fun _ => nofun) (fun _ => nofun)
      · exact Walk.found.inj hwalk
      · cases hwalk
      · cases hwalk
      · obtain ⟨rfl, rfl, hrest⟩ := Walk.link.inj hwalk
        refine ih left (Nat.lt_succ_self left) ?_ hleft hleast
        simp only [solid, List.filter_append] at hrest ⊢
        rw [hrest]

theorem solid_pieces (p : Path) :
    solid (Text.pieces slash p.bytes) = p.inner.map fun c => Utf8.encode c.text := by
  rw [Path.bytes, Utf8.pieces_encode]
  show solid (p.segments.map Utf8.encode) = (p.segments.filterMap Path.Component.ofSegment).map _
  induction p.segments with
  | nil => rfl
  | cons s segments ih =>
      cases hs : Path.blank s with
      | true =>
          rw [List.filterMap_cons_none (Path.ofSegment_of_blank hs), ← ih]
          rcases Path.blank_eq_true_iff.mp hs with rfl | rfl <;> rfl
      | false =>
          rw [List.filterMap_cons_some (Path.ofSegment_of_not_blank hs), List.map_cons,
            List.map_cons, ← ih]
          have hne : Utf8.encode s ≠ [] ∧ Utf8.encode s ≠ [dot] := by
            rw [Bool.eq_false_iff, ne_eq, Path.blank_eq_true_iff, not_or] at hs
            have hdot : ([dot] : Name) = Utf8.encode ['.'] := by decide
            have hnil : ([] : Name) = Utf8.encode [] := rfl
            exact ⟨fun h => hs.1 (Utf8.encode_injective (h.trans hnil)),
              fun h => hs.2 (Utf8.encode_injective (h.trans hdot))⟩
          have htext : (Path.Component.ofName s).text = s := by
            unfold Path.Component.ofName
            split_ifs with hup
            · exact hup.symm
            · rfl
          rw [htext]
          simp [solid, hne]

theorem startOf_bytes (here : Location) (p : Path) :
    startOf here p.bytes = if p.isAbsolute then [] else here := by
  have hiff : p.bytes.head? = some slash ↔ p.isAbsolute = true := by
    unfold Path.bytes Path.isAbsolute
    rw [Utf8.head?_encode_eq_slash_iff, beq_iff_eq]
  unfold startOf
  simp only [hiff]

theorem isAbsolute_eq_of_equiv {p q : Path} (h : p ≈ q) : p.isAbsolute = q.isAbsolute := by
  rw [Bool.eq_iff_iff, Path.isAbsolute_iff, Path.isAbsolute_iff, Path.equiv_def.mp h]

theorem solid_pieces_of_equiv {p q : Path} (h : p ≈ q) :
    solid (Text.pieces slash p.bytes) = solid (Text.pieces slash q.bytes) := by
  rw [solid_pieces, solid_pieces, Path.inner_eq_of_equiv h]

theorem directoryAt_unique {p q : Path} (hsame : p ≈ q) {other : Location}
    (hp : t.directoryAt here p.bytes = some dir) (hq : t.directoryAt here q.bytes = some other) :
    dir = other := by
  obtain ⟨-, -, -, hp, -⟩ := directoryAt_eq_some_iff.mp hp
  obtain ⟨-, -, -, hq, -⟩ := directoryAt_eq_some_iff.mp hq
  rw [startOf_bytes] at hp hq
  rw [← isAbsolute_eq_of_equiv hsame] at hq
  exact follow_unique (solid_pieces_of_equiv hsame) hp hq

/-- A path leads to the directory to which a path leads that is the same, if it can be looked up at
all. -/
theorem directoryAt_of_equiv {p q : Path} (hsame : p ≈ q)
    (hp : t.directoryAt here p.bytes = some dir) (hnul : 0 ∉ q.bytes) (hne : q.bytes ≠ [])
    (hshort : q.bytes.length < pathLimit) : t.directoryAt here q.bytes = some dir := by
  obtain ⟨-, -, -, hfollow, hdir⟩ := directoryAt_eq_some_iff.mp hp
  refine directoryAt_eq_some_iff.mpr ⟨hnul, hne, hshort, ?_, hdir⟩
  rw [startOf_bytes] at hfollow ⊢
  rw [← isAbsolute_eq_of_equiv hsame]
  exact follow_of_solid (solid_pieces_of_equiv hsame) hfollow hdir

/-! ### A name behind a directory -/

theorem follow_of_solid_concat {links more : Nat} {segments others : List Name} {loc : Location}
    {name : Name} (hsolid : solid segments = solid others ++ [name])
    (h : t.follow links here segments = .ok (.found dir))
    (g : t.follow more here others = .ok (.found loc)) :
    ∃ left ≤ links, t.follow left loc [name] = .ok (.found dir) := by
  obtain ⟨front, rest, rfl, hfront, hrest⟩ := List.filter_eq_append_iff.mp hsolid
  obtain ⟨blank, back, rfl, hblank, -, hback⟩ := List.filter_eq_cons_iff.mp hrest
  have hbefore : solid (front ++ blank) = solid others := by
    rw [solid, List.filter_append, hfront, List.filter_eq_nil_iff.mpr hblank, List.append_nil]
  rw [← List.append_assoc] at h
  obtain ⟨between, left, hle, hbetween, hend⟩ := follow_append_cases h
  obtain rfl := follow_unique hbefore hbetween g
  -- What is left behind the name says nothing.
  rw [← List.singleton_append] at hend
  obtain ⟨place, least, -, hplace, hlast⟩ := follow_append_cases hend
  have hstay : solid back = solid [] := hback
  obtain rfl := follow_unique hstay hlast (follow_of_found rfl least)
  exact ⟨left, hle, hplace⟩

theorem follow_of_directoryAt_concat {p q : Path} {loc : Location} {name : Text}
    (hq : q.text ≠ []) (hp : p.components = q.components ++ [.normal name])
    (hdir : t.directoryAt here p.bytes = some dir) (hloc : t.directoryAt here q.bytes = some loc) :
    t.follow linkLimit loc [Utf8.encode name] = .ok (.found dir) := by
  obtain ⟨-, -, -, hdir, -⟩ := directoryAt_eq_some_iff.mp hdir
  obtain ⟨-, -, -, hloc, -⟩ := directoryAt_eq_some_iff.mp hloc
  have hinner : p.inner = q.inner ++ [.normal name] := by
    rw [Path.inner_eq_filter, Path.inner_eq_filter, hp, List.filter_append]
    rfl
  have habs : p.isAbsolute = q.isAbsolute := by
    have hne : q.components ≠ [] := mt Path.components_eq_nil_iff.mp hq
    rw [Bool.eq_iff_iff, Path.isAbsolute_iff, Path.isAbsolute_iff, hp,
      List.head?_append_of_ne_nil _ hne]
  rw [startOf_bytes] at hdir hloc
  rw [habs] at hdir
  have hsolid : solid (Text.pieces slash p.bytes) =
      solid (Text.pieces slash q.bytes) ++ [Utf8.encode name] := by
    rw [solid_pieces, solid_pieces, hinner, List.map_append]
    rfl
  obtain ⟨left, hle, hname⟩ := follow_of_solid_concat hsolid hdir hloc
  exact follow_mono hle hname

/-! ### Canonical paths beside a new file -/

section canonical

variable {loc : Location} {name : Name} {content : Bytes} {permissions : Nat}
  (hwell : t.WellFormed) (hloc : t.get? loc = some .directory)
  (hold : t.get? (name :: dir) ≠ some .directory)
include hwell hloc hold

/-- The canonical path of a directory meets no link, so no new file is in its way. -/
theorem follow_put_of_canonical {segments : List Name}
    (hsame : solid (Text.pieces slash (Location.path loc)) = solid segments) {found : Location}
    (h : t.follow linkLimit [] segments = .ok (.found found)) : found = loc ∧
      (t.put (name :: dir) (.file content permissions)).follow linkLimit [] segments =
        .ok (.found found) ∧
      (t.put (name :: dir) (.file content permissions)).get? found = some .directory := by
  have hwalk := walk_of_solid hsame (walk_path hwell hloc) hloc
  rw [follow_of_found hwalk] at h
  obtain rfl := Reached.found.inj (Except.ok.inj h)
  have hne : loc ≠ name :: dir := by
    rintro rfl
    exact hold hloc
  refine ⟨rfl, follow_of_found (walk_put_of_found hold hwalk) _, ?_⟩
  rw [get?_put_of_ne (List.cons_ne_nil name dir) hne, hloc]

theorem directoryAt_put_of_canonical {path : Bytes} (hstart : startOf here path = [])
    (hsame : solid (Text.pieces slash (Location.path loc)) = solid (Text.pieces slash path))
    {found : Location} (h : t.directoryAt here path = some found) :
    (t.put (name :: dir) (.file content permissions)).directoryAt here path = some found := by
  obtain ⟨hnul, hne, hshort, hfollow, -⟩ := directoryAt_eq_some_iff.mp h
  rw [hstart] at hfollow
  obtain ⟨-, hfollow, hget⟩ := follow_put_of_canonical hwell hloc hold hsame hfollow
  exact directoryAt_eq_some_iff.mpr ⟨hnul, hne, hshort, hstart ▸ hfollow, hget⟩

theorem locateParent_put_of_canonical {path : Bytes} (hstart : startOf here path = [])
    (hsame : solid (Text.pieces slash (Location.path loc)) = solid (splitLast path).1)
    {found : Location × LastSegment} (h : t.locateParent here path = .ok found) :
    (t.put (name :: dir) (.file content permissions)).locateParent here path = .ok found := by
  obtain ⟨hne, hshort, hfollow, -, hlast⟩ := locateParent_eq_ok_iff.mp h
  rw [hstart] at hfollow
  obtain ⟨-, hfollow, hget⟩ := follow_put_of_canonical hwell hloc hold hsame hfollow
  exact locateParent_eq_ok_iff.mpr ⟨hne, hshort, hstart ▸ hfollow, hget, hlast⟩

end canonical

end FileTree
end NinjaPlan
