import QueryBuild.Proofs.Files.View
/-!
# What a written file changes

To write a file changes the file that the path leads to and no other one. If the path ends in a name
and not in a link, the file has that name.
-/

namespace QueryBuild.FileSystem

/-- The file at a location holds some bytes. Directories, links and all other files are the same,
but for the times of directories. -/
structure WroteFile (fs fs' : FileSystem) (location : Location) (contents : ByteArray) : Prop where
  shape : SameShape fs fs'
  written : ∃ executable, fs'.get? location = some (.file contents fs.now executable)
  kept : ∀ other, other ≠ location → ∀ held modified executable,
    fs'.get? other = some (.file held modified executable) ↔
      fs.get? other = some (.file held modified executable)

section

variable {fs fs' : FileSystem} {location : Location} {contents : ByteArray}

theorem get?_create_of_ne {other : Location} (hother : other ≠ location) (entry : Entry)
    (held : ByteArray) (modified : Instant) (executable : Bool) :
    (fs.create location entry).get? other = some (.file held modified executable) ↔
      fs.get? other = some (.file held modified executable) := by
  rw [create]
  split
  · rename_i time hd
    split
    · rw [get?_put_of_ne _ hother]
    · rename_i hroot
      rw [get?_put_of_ne _ hother]
      -- the parent is touched too, but it is a directory before and after
      by_cases hparent : other = location.dropLast
      · have hnonempty : location.dropLast ≠ [] := by simpa using hroot
        rw [hparent, hd, get?_put_self _ hnonempty]
        simp
      · rw [get?_put_of_ne _ hparent]
  · rw [get?_put_of_ne _ hother]

theorem wroteFile_of_write {path : Path} (hw : fs.write path contents = .ok fs') :
    ∃ target entry, fs.resolve true path = .ok ⟨target, entry⟩ ∧
      WroteFile fs fs' target contents := by
  have hshape := (write_spec hw).1.shape
  obtain ⟨target, hbefore, hcase⟩ := write_cases hw
  rcases hcase with ⟨hresolve, rfl⟩ | ⟨before, modified, executable, hresolve, rfl⟩
  · exact ⟨target, none, hresolve, hshape, ⟨false, get?_create_self hbefore.ne_nil _⟩,
      fun other hother => get?_create_of_ne hother _⟩
  · refine ⟨target, _, hresolve, hshape, ⟨executable, get?_put_self _ hbefore.ne_nil _⟩, ?_⟩
    intro other hother held time mode
    rw [get?_put_of_ne _ hother]

theorem WroteFile.read_self (h : WroteFile fs fs' location contents) {path : Path}
    (hpath : fs.canonicalize path = .ok location) : fs'.read path = .ok contents := by
  obtain ⟨⟨found, entry⟩, hfind, rfl⟩ := ok_of_map hpath
  obtain ⟨executable, hwritten⟩ := h.written
  have hresolve := resolve_of_sameShape h.shape (find_eq_ok.mp hfind)
  rw [hwritten] at hresolve
  exact read_eq_ok.mpr ⟨_, _, _, find_eq_ok.mpr hresolve⟩

theorem WroteFile.read_of_ne (h : WroteFile fs fs' location contents) {path : Path}
    {other : Location} (hpath : fs.canonicalize path = .ok other) (hother : other ≠ location) :
    fs'.read path = fs.read path := by
  obtain ⟨⟨found, entry⟩, hfind, rfl⟩ := ok_of_map hpath
  have hresolve := resolve_of_sameShape h.shape (find_eq_ok.mp hfind)
  have hget := get?_of_find hfind
  cases entry with
  | file held modified executable =>
    rw [(h.kept found hother held modified executable).mpr hget] at hresolve
    rw [read_eq_ok.mpr ⟨_, _, _, hfind⟩, read_eq_ok.mpr ⟨_, _, _, find_eq_ok.mpr hresolve⟩]
  | directory modified =>
    obtain ⟨time, hdirectory⟩ := h.shape.directory hget
    rw [hdirectory] at hresolve
    rw [read, read, hfind, find_eq_ok.mpr hresolve]
  | link target =>
    rw [h.shape.link hget] at hresolve
    rw [read, read, hfind, find_eq_ok.mpr hresolve]

end

/-! ### The name at the end of a path -/

private theorem getLast?_tail {first name : String} {rest : List String}
    (h : (first :: rest).getLast? = some name) :
    (rest = [] ∧ first = name) ∨ rest.getLast? = some name := by
  cases rest with
  | nil => exact Or.inl ⟨rfl, by simpa using h⟩
  | cons second rest =>
    rw [List.getLast?_cons_cons] at h
    exact Or.inr h

/-- A walk that ends in a name gets to an entry of that name, unless it ends in a link. -/
theorem walk_last_cases {fs : FileSystem} {links : Nat} {here : Location} {names : List String}
    {name : String} {found : Target} (hdot : name ≠ ".") (hdots : name ≠ "..")
    (hw : fs.walk true links here names = .ok found) (hlast : names.getLast? = some name) :
    (∃ place target, fs.walk false links here names = .ok ⟨place, some (.link target)⟩) ∨
      found.location.getLast? = some (FileName.ofText name) := by
  fun_induction walk fs true links here names with
  | case1 links here => cases hlast
  | case2 links here first rest modified hd hfirst ih =>
    have hrest := (getLast?_tail hlast).resolve_left fun h =>
      hdot (h.2.symm.trans (beq_iff_eq.mp hfirst))
    rw [walk_dot hd hfirst]
    exact ih hw hrest
  | case3 links here first rest modified hd hnotDot hfirst ih =>
    have hrest := (getLast?_tail hlast).resolve_left fun h =>
      hdots (h.2.symm.trans (beq_iff_eq.mp hfirst))
    rw [walk_dots hd hnotDot hfirst]
    exact ih hw hrest
  | case5 links here first rest modified hd hnotDot hnotDots hlength next hnext hempty =>
    obtain ⟨-, hfirst⟩ := (getLast?_tail hlast).resolve_right
      (by simp [List.isEmpty_iff.mp hempty])
    cases hw
    exact Or.inr (by simp [next, hfirst])
  | case7 links here first rest modified hd hnotDot hnotDots hlength next target hnext hstop =>
    simp at hstop
  | case10 here first rest modified hd hnotDot hnotDots hlength next target hnext hgo links htarget
      ih =>
    have hlink : fs.get? (here ++ [FileName.ofText first]) = some (.link target) := hnext
    -- a link in the middle is followed by both walks, one at the end by the first only
    rcases getLast?_tail hlast with ⟨rfl, -⟩ | hrest
    · refine Or.inl ⟨here ++ [FileName.ofText first], target, ?_⟩
      rw [walk_name hd hnotDot hnotDots hlength, hlink]
      rfl
    · have hnonempty : rest ≠ [] := by
        rintro rfl
        cases hrest
      rw [walk_link hd hnotDot hnotDots hlength hlink (by simpa using hnonempty) htarget]
      exact ih hw (by rw [List.getLast?_append_of_ne_nil _ hnonempty, hrest])
  | case11 links here first rest modified hd hnotDot hnotDots hlength next entry hnot hnext ih =>
    rcases getLast?_tail hlast with ⟨rfl, hfirst⟩ | hrest
    · rw [walk] at hw
      cases hw
      exact Or.inr (by simp [next, hfirst])
    · rw [walk_entry hd hnotDot hnotDots hlength hnext hnot]
      exact ih hw hrest
  | _ => cases hw

/-- A path of ordinary names leads to an entry with the last of them, unless that is a link. -/
theorem resolve_last_cases {fs : FileSystem} {names : List String}
    (hnames : ∀ n ∈ names, IsOrdinary n) {name : String} (hname : IsOrdinary name) {found : Target}
    (hr : fs.resolve true (Path.rooted (names ++ [name])) = .ok found) :
    (∃ place target, fs.resolve false (Path.rooted (names ++ [name])) =
        .ok ⟨place, some (.link target)⟩) ∨
      found.location.getLast? = some (FileName.ofText name) := by
  have hsteps : steps (Path.rooted (names ++ [name])).text = names ++ [name] :=
    Path.steps_rooted (List.forall_mem_append.mpr ⟨hnames, List.forall_mem_singleton.mpr hname⟩)
  have hwalk := resolve_eq_walk_of_ok hr fs
  rw [hwalk true, hsteps] at hr
  rw [hwalk false, hsteps]
  exact walk_last_cases hname.notDot hname.notDots hr List.getLast?_concat

end QueryBuild.FileSystem
