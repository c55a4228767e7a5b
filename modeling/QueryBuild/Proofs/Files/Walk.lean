import QueryBuild.Files.Access
import QueryBuild.Proofs.Path
/-!
# Where paths lead while files change

Only directories and links decide where a path leads. While they stay, a path that leads to a
location goes on leading there, whatever happens to the files.
-/

namespace QueryBuild

/-- What of an entry lets a path lead on: that it is a directory, or the target of a link. -/
def Entry.passage? : Entry → Option (Option String)
  | file _ _ _ => none
  | directory _ => some none
  | link target => some (some target)

namespace FileSystem

/-- Both have the same directories and the same links. -/
structure SameShape (fs fs' : FileSystem) : Prop where
  workingDirectory : fs'.workingDirectory = fs.workingDirectory
  passage : ∀ location,
    (fs'.get? location).bind Entry.passage? = (fs.get? location).bind Entry.passage?

theorem SameShape.refl (fs : FileSystem) : SameShape fs fs :=
  ⟨rfl, fun _ => rfl⟩

theorem SameShape.symm {fs fs' : FileSystem} (h : SameShape fs fs') : SameShape fs' fs :=
  ⟨h.workingDirectory.symm, fun location => (h.passage location).symm⟩

theorem SameShape.trans {fs fs' fs'' : FileSystem} (h : SameShape fs fs')
    (h' : SameShape fs' fs'') : SameShape fs fs'' :=
  ⟨h'.workingDirectory.trans h.workingDirectory,
    fun location => (h'.passage location).trans (h.passage location)⟩

theorem SameShape.directory {fs fs' : FileSystem} (h : SameShape fs fs') {location : Location}
    {time : Instant} (hd : fs.get? location = some (.directory time)) :
    ∃ time', fs'.get? location = some (.directory time') := by
  have hpassage := h.passage location
  rw [hd] at hpassage
  cases he : fs'.get? location with
  | none => simp [he, Entry.passage?] at hpassage
  | some entry => cases entry <;> simp [he, Entry.passage?] at hpassage ⊢

theorem SameShape.link {fs fs' : FileSystem} (h : SameShape fs fs') {location : Location}
    {target : String} (hl : fs.get? location = some (.link target)) :
    fs'.get? location = some (.link target) := by
  have hpassage := h.passage location
  rw [hl] at hpassage
  cases he : fs'.get? location with
  | none => simp [he, Entry.passage?] at hpassage
  | some entry => cases entry <;> simp [he, Entry.passage?] at hpassage ⊢; exact hpassage

/-! ### Single steps -/

section Steps

variable {fs : FileSystem} {follow : Bool} {links : Nat} {here : Location} {time : Instant}
  {name : String}

theorem walk_dot (hd : fs.get? here = some (.directory time)) (hdot : (name == ".") = true)
    (rest : List String) :
    fs.walk follow links here (name :: rest) = fs.walk follow links here rest := by
  rw [walk]
  simp only [hd, hdot, if_true]

theorem walk_dots (hd : fs.get? here = some (.directory time)) (hdot : ¬ (name == ".") = true)
    (hdots : (name == "..") = true) (rest : List String) :
    fs.walk follow links here (name :: rest) = fs.walk follow links here.dropLast rest := by
  rw [walk]
  simp only [hd, hdot, hdots, if_true]
  rfl

/-- A step by a name other than `.` and `..`. -/
theorem walk_name (hd : fs.get? here = some (.directory time)) (hdot : ¬ (name == ".") = true)
    (hdots : ¬ (name == "..") = true) (hlength : ¬ name.utf8ByteSize > nameLimit)
    (rest : List String) :
    fs.walk follow links here (name :: rest) =
      match fs.get? (here ++ [FileName.ofText name]) with
      | none =>
        if rest.isEmpty then .ok ⟨here ++ [FileName.ofText name], none⟩ else .error .notFound
      | some (.link target) =>
        if rest.isEmpty && !follow then
          .ok ⟨here ++ [FileName.ofText name], some (.link target)⟩
        else
          match links with
          | 0 => .error .linkLoop
          | links + 1 =>
            if target.isEmpty then .error .notFound
            else fs.walk follow links (startOf target here) (steps target ++ rest)
      | some _ => fs.walk follow links (here ++ [FileName.ofText name]) rest := by
  rw [walk]
  simp only [hd, hdot, hdots, hlength]
  rfl

theorem walk_link {target : String} (hd : fs.get? here = some (.directory time))
    (hdot : ¬ (name == ".") = true) (hdots : ¬ (name == "..") = true)
    (hlength : ¬ name.utf8ByteSize > nameLimit)
    (hlink : fs.get? (here ++ [FileName.ofText name]) = some (.link target)) {rest : List String}
    (hgo : ¬ (rest.isEmpty && !follow) = true) (htarget : ¬ target.isEmpty = true) :
    fs.walk follow (links + 1) here (name :: rest) =
      fs.walk follow links (startOf target here) (steps target ++ rest) := by
  rw [walk_name hd hdot hdots hlength]
  simp only [hlink, hgo, htarget]
  rfl

theorem walk_entry {entry : Entry} (hd : fs.get? here = some (.directory time))
    (hdot : ¬ (name == ".") = true) (hdots : ¬ (name == "..") = true)
    (hlength : ¬ name.utf8ByteSize > nameLimit)
    (hentry : fs.get? (here ++ [FileName.ofText name]) = some entry)
    (hnot : ∀ target, entry ≠ .link target) (rest : List String) :
    fs.walk follow links here (name :: rest) =
      fs.walk follow links (here ++ [FileName.ofText name]) rest := by
  rw [walk_name hd hdot hdots hlength, hentry]
  cases entry with
  | link target => exact absurd rfl (hnot target)
  | file contents modified executable => rfl
  | directory modified => rfl

/-- The last step, unless it meets a link. -/
theorem walk_last (hd : fs.get? here = some (.directory time)) (hdot : ¬ (name == ".") = true)
    (hdots : ¬ (name == "..") = true) (hlength : ¬ name.utf8ByteSize > nameLimit)
    (hlink : ∀ target, fs.get? (here ++ [FileName.ofText name]) ≠ some (.link target)) :
    fs.walk follow links here [name] =
      .ok ⟨here ++ [FileName.ofText name], fs.get? (here ++ [FileName.ofText name])⟩ := by
  cases hentry : fs.get? (here ++ [FileName.ofText name]) with
  | none =>
    rw [walk_name hd hdot hdots hlength, hentry]
    rfl
  | some entry =>
    rw [walk_entry hd hdot hdots hlength hentry fun target h => hlink target (h ▸ hentry), walk,
      hentry]

theorem walk_of_not_directory (hd : ∀ time, fs.get? here ≠ some (.directory time))
    (rest : List String) : ∃ e, fs.walk follow links here (name :: rest) = .error e := by
  rw [walk]
  split
  · rename_i modified hdirectory
    exact absurd hdirectory (hd modified)
  · exact ⟨_, rfl⟩
  · exact ⟨_, rfl⟩

/-- A walk that goes on behind a place has met a directory there. -/
theorem directory_of_walk {found : Target} {rest : List String}
    (hw : fs.walk follow links here (name :: rest) = .ok found) :
    ∃ time, fs.get? here = some (.directory time) := by
  by_contra hnone
  obtain ⟨e, he⟩ : ∃ e, fs.walk follow links here (name :: rest) = .error e :=
    walk_of_not_directory (fun time hd => hnone ⟨time, hd⟩) rest
  rw [he] at hw
  cases hw

end Steps

/-- Where a walk ends in some files, it ends in all files of the same shape. -/
theorem walk_of_sameShape {fs fs' : FileSystem} (h : SameShape fs fs') {follow : Bool} {links : Nat}
    {here location : Location} {names : List String} {entry : Option Entry}
    (hw : fs.walk follow links here names = .ok ⟨location, entry⟩) :
    fs'.walk follow links here names = .ok ⟨location, fs'.get? location⟩ := by
  have hnoLink : ∀ {next : Location}, (∀ target, fs.get? next ≠ some (.link target)) →
      ∀ target, fs'.get? next ≠ some (.link target) :=
    fun hnot target htarget => hnot target (h.symm.link htarget)
  fun_induction walk fs follow links here names with
  | case1 links here =>
    cases hw
    rw [walk]
  | case2 links here name rest modified hd hdot ih =>
    obtain ⟨time, hd'⟩ := h.directory hd
    rw [walk_dot hd' hdot]
    exact ih hw
  | case3 links here name rest modified hd hdot hdots ih =>
    obtain ⟨time, hd'⟩ := h.directory hd
    rw [walk_dots hd' hdot hdots]
    exact ih hw
  | case5 links here name rest modified hd hdot hdots hlength next hnext hrest =>
    obtain ⟨time, hd'⟩ := h.directory hd
    obtain ⟨rfl, -⟩ := Target.mk.inj (Except.ok.inj hw)
    rw [List.isEmpty_iff.mp hrest]
    refine walk_last hd' hdot hdots hlength (hnoLink fun target htarget => ?_)
    cases hnext.symm.trans htarget
  | case7 links here name rest modified hd hdot hdots hlength next target hnext hstop =>
    obtain ⟨time, hd'⟩ := h.directory hd
    obtain ⟨rfl, -⟩ := Target.mk.inj (Except.ok.inj hw)
    rw [walk_name hd' hdot hdots hlength]
    have hnext' : fs'.get? (here ++ [FileName.ofText name]) = some (.link target) := h.link hnext
    simp only [hnext', hstop, if_true]
    rw [h.link hnext]
  | case10 here name rest modified hd hdot hdots hlength next target hnext hgo links htarget ih =>
    obtain ⟨time, hd'⟩ := h.directory hd
    rw [walk_link hd' hdot hdots hlength (h.link hnext) hgo htarget]
    exact ih hw
  | case11 links here name rest modified hd hdot hdots hlength next entry' hnot hnext ih =>
    obtain ⟨time, hd'⟩ := h.directory hd
    -- the entry may change, but not into a link, and not at all if the walk goes on behind it
    cases rest with
    | nil =>
      rw [walk] at hw
      obtain ⟨rfl, -⟩ := Target.mk.inj (Except.ok.inj hw)
      refine walk_last hd' hdot hdots hlength (hnoLink fun target htarget => ?_)
      exact hnot target (Option.some.inj (hnext.symm.trans htarget))
    | cons second rest =>
      obtain ⟨_, hdirectory⟩ := directory_of_walk hw
      obtain ⟨time', hnext'⟩ := h.directory hdirectory
      rw [walk_entry hd' hdot hdots hlength hnext' fun target htarget => by cases htarget]
      exact ih hw
  | _ => cases hw

/-- A walk that gets to a directory gets to the entries in it that are no links, unless their name
is too long. -/
theorem walk_concat_eq {fs : FileSystem} {links : Nat} {here directory : Location}
    {names : List String} {time : Instant} {name : String}
    (hw : fs.walk true links here names = .ok ⟨directory, some (.directory time)⟩)
    (hdot : name ≠ ".") (hdots : name ≠ "..")
    (hlink : ∀ target, fs.get? (directory ++ [FileName.ofText name]) ≠ some (.link target))
    (follow : Bool) :
    fs.walk follow links here (names ++ [name]) =
      if name.utf8ByteSize > nameLimit then .error .nameTooLong
      else .ok ⟨directory ++ [FileName.ofText name],
        fs.get? (directory ++ [FileName.ofText name])⟩ := by
  fun_induction walk fs true links here names with
  | case1 links here =>
    obtain ⟨rfl, hd⟩ := Target.mk.inj (Except.ok.inj hw)
    split
    · rename_i hlength
      rw [List.nil_append, walk]
      simp [hd, hdot, hdots, hlength]
    · rename_i hlength
      exact walk_last hd (by simpa using hdot) (by simpa using hdots) hlength hlink
  | case2 links here first rest modified hd hfirst ih =>
    rw [List.cons_append, walk_dot hd hfirst]
    exact ih hw
  | case3 links here first rest modified hd hfirst hsecond ih =>
    rw [List.cons_append, walk_dots hd hfirst hsecond]
    exact ih hw
  | case10 here first rest modified hd h1 h2 h3 next target hnext hgo links htarget ih =>
    rw [List.cons_append, walk_link hd h1 h2 h3 hnext (by simp) htarget, ← ih hw,
      List.append_assoc]
  | case11 links here first rest modified hd h1 h2 h3 next entry hnot hnext ih =>
    rw [List.cons_append, walk_entry hd h1 h2 h3 hnext hnot]
    exact ih hw
  | case7 links here first rest modified hd h1 h2 h3 next target hnext hstop => simp at hstop
  | case5 links here first rest modified hd h1 h2 h3 next hnext hrest =>
    cases (Target.mk.inj (Except.ok.inj hw)).2
  | _ => cases hw

/-! ### Paths -/

/-- A path leads to a location, if anywhere. -/
def Leads (fs : FileSystem) (path : Path) (location : Location) : Prop :=
  ∀ follow found, fs.resolve follow path = .ok found → found = ⟨location, fs.get? location⟩

/-- A path that leads anywhere is walked in any files, whether a link at its end is followed or
not. -/
theorem resolve_eq_walk_of_ok {fs : FileSystem} {follow : Bool} {path : Path} {found : Target}
    (hr : fs.resolve follow path = .ok found) (fs' : FileSystem) (follow' : Bool) :
    fs'.resolve follow' path =
      fs'.walk follow' linkLimit (startOf path.text fs'.workingDirectory) (steps path.text) := by
  rw [resolve] at hr ⊢
  split at hr
  · cases hr
  split at hr
  · cases hr
  split at hr
  · cases hr
  rw [if_neg ‹_›, if_neg ‹_›, if_neg ‹_›]

theorem resolve_of_sameShape {fs fs' : FileSystem} (h : SameShape fs fs') {follow : Bool}
    {path : Path} {location : Location} {entry : Option Entry}
    (hr : fs.resolve follow path = .ok ⟨location, entry⟩) :
    fs'.resolve follow path = .ok ⟨location, fs'.get? location⟩ := by
  rw [resolve_eq_walk_of_ok hr fs' follow, h.workingDirectory]
  rw [resolve_eq_walk_of_ok hr fs follow] at hr
  exact walk_of_sameShape h hr

theorem Leads.of_sameShape {fs fs' : FileSystem} {path : Path} {location : Location}
    (hl : fs.Leads path location) (h : SameShape fs fs') : fs'.Leads path location := by
  intro follow found hfound
  have hback := resolve_of_sameShape h.symm hfound
  have hhere := resolve_of_sameShape (SameShape.refl fs') hfound
  have hsame : found.location = location := congrArg Target.location (hl follow _ hback)
  rw [← hsame]
  exact Except.ok.inj (hfound.symm.trans hhere)

theorem find_eq_ok {fs : FileSystem} {path : Path} {location : Location} {entry : Entry} :
    fs.find path = .ok (location, entry) ↔ fs.resolve true path = .ok ⟨location, some entry⟩ := by
  rw [find]
  split
  · rename_i e he
    simp [he]
  · rename_i other he
    simp [he]
  · rename_i other known he
    simp [he]

theorem get?_of_find {fs : FileSystem} {path : Path} {location : Location} {entry : Entry}
    (hf : fs.find path = .ok (location, entry)) : fs.get? location = some entry := by
  have hresolve := find_eq_ok.mp hf
  have hhere := resolve_of_sameShape (SameShape.refl fs) hresolve
  exact (Target.mk.inj (Except.ok.inj (hresolve.symm.trans hhere))).2.symm

theorem Leads.find {fs : FileSystem} {path : Path} {location found : Location} {entry : Entry}
    (hl : fs.Leads path location) (hf : fs.find path = .ok (found, entry)) :
    found = location ∧ fs.get? location = some entry := by
  obtain ⟨hlocation, hentry⟩ := Target.mk.inj (hl true _ (find_eq_ok.mp hf))
  exact ⟨hlocation, hentry.symm⟩

/-- A path that is neither empty nor too long and holds no null character is walked. -/
theorem resolve_eq_walk (fs : FileSystem) (follow : Bool) {path : Path}
    (hvalid : path.text.toList.contains '\x00' = false ∧ path.text.isEmpty = false ∧
      path.text.utf8ByteSize < pathLimit) :
    fs.resolve follow path =
      fs.walk follow linkLimit (startOf path.text fs.workingDirectory) (steps path.text) := by
  obtain ⟨hnul, hnonempty, hlimit⟩ := hvalid
  rw [resolve, hnul, hnonempty, if_neg (by decide), if_neg (by decide), if_neg (by omega)]

/-- A path leads where a walk over its steps ends. -/
theorem resolve_of_walk {fs : FileSystem} {follow : Bool} {path : Path}
    {found : Except IoError Target} (names : List String)
    (hvalid : path.text.toList.contains '\x00' = false ∧ path.text.isEmpty = false ∧
      path.text.utf8ByteSize < pathLimit)
    (hsteps : steps path.text = names)
    (hw : fs.walk follow linkLimit (startOf path.text fs.workingDirectory) names = found) :
    fs.resolve follow path = found := by
  rw [resolve_eq_walk fs follow hvalid, hsteps, hw]

theorem find_of_walk {fs : FileSystem} {path : Path} {location : Location} {entry : Entry}
    (names : List String)
    (hvalid : path.text.toList.contains '\x00' = false ∧ path.text.isEmpty = false ∧
      path.text.utf8ByteSize < pathLimit)
    (hsteps : steps path.text = names)
    (hw : fs.walk true linkLimit (startOf path.text fs.workingDirectory) names =
      .ok ⟨location, some entry⟩) :
    fs.find path = .ok (location, entry) :=
  find_eq_ok.mpr (resolve_of_walk names hvalid hsteps hw)

/-- A path of ordinary names that leads anywhere is walked name by name. -/
theorem walk_of_resolve_rooted {fs : FileSystem} {names : List String}
    (hnames : ∀ n ∈ names, IsOrdinary n) {follow : Bool} {found : Target}
    (hr : fs.resolve follow (Path.rooted names) = .ok found) :
    fs.walk follow linkLimit [] names = .ok found := by
  have habsolute := Path.isAbsolute_rooted names
  rw [Path.isAbsolute] at habsolute
  rw [resolve_eq_walk_of_ok hr fs follow, startOf, habsolute, Path.steps_rooted hnames] at hr
  exact hr

/-- What is looked up for the path of an entry of a directory depends on the entry only, if that is
no link. -/
theorem resolve_rooted_concat {fs : FileSystem} {names : List String}
    (hnames : ∀ n ∈ names, IsOrdinary n) {directory : Location} {time : Instant}
    (hd : fs.find (Path.rooted names) = .ok (directory, .directory time)) {name : String}
    (hname : IsOrdinary name)
    (hlink : ∀ target, fs.get? (directory ++ [FileName.ofText name]) ≠ some (.link target))
    (follow : Bool) :
    let path := Path.rooted (names ++ [name])
    fs.resolve follow path =
      if path.text.toList.contains '\x00' then .error .nulInPath
      else if path.text.utf8ByteSize + 1 > pathLimit then .error .nameTooLong
      else if name.utf8ByteSize > nameLimit then .error .nameTooLong
      else .ok ⟨directory ++ [FileName.ofText name],
        fs.get? (directory ++ [FileName.ofText name])⟩ := by
  have hall : ∀ n ∈ names ++ [name], IsOrdinary n := by
    intro n hn
    rcases List.mem_append.mp hn with hn | hn
    · exact hnames n hn
    · exact List.mem_singleton.mp hn ▸ hname
  have habsolute := Path.isAbsolute_rooted (names ++ [name])
  have hnonempty : (Path.rooted (names ++ [name])).text.isEmpty = false := by
    simpa using Path.text_rooted_ne (names ++ [name])
  rw [Path.isAbsolute] at habsolute
  dsimp only
  rw [resolve, hnonempty, startOf, habsolute, Path.steps_rooted hall, if_pos rfl,
    walk_concat_eq (walk_of_resolve_rooted hnames (find_eq_ok.mp hd)) hname.notDot hname.notDots
      hlink]
  rfl

theorem resolve_rooted_missing {fs : FileSystem} {names : List String}
    (hnames : ∀ n ∈ names, IsOrdinary n) {directory : Location} {time : Instant}
    (hd : fs.find (Path.rooted names) = .ok (directory, .directory time)) {name : String}
    (hname : IsOrdinary name) (hnone : fs.get? (directory ++ [FileName.ofText name]) = none)
    (hvalid : (Path.rooted (names ++ [name])).text.toList.contains '\x00' = false ∧
      (Path.rooted (names ++ [name])).text.utf8ByteSize + 1 ≤ pathLimit ∧
      name.utf8ByteSize ≤ nameLimit) (follow : Bool) :
    fs.resolve follow (Path.rooted (names ++ [name])) =
      .ok ⟨directory ++ [FileName.ofText name], none⟩ := by
  obtain ⟨hnul, hlimit, hlength⟩ := hvalid
  rw [resolve_rooted_concat hnames hd hname (by simp [hnone]), hnul, if_neg (by decide),
    if_neg (by omega), if_neg (by omega), hnone]

/-- The paths of the entries of a directory without links lead to them. -/
theorem leads_rooted {fs : FileSystem} {names : List String} (hnames : ∀ n ∈ names, IsOrdinary n)
    {directory : Location} {time : Instant}
    (hd : fs.find (Path.rooted names) = .ok (directory, .directory time)) {name : String}
    (hname : IsOrdinary name)
    (hlink : ∀ target, fs.get? (directory ++ [FileName.ofText name]) ≠ some (.link target)) :
    fs.Leads (Path.rooted (names ++ [name])) (directory ++ [FileName.ofText name]) := by
  intro follow found hfound
  rw [resolve_rooted_concat hnames hd hname hlink] at hfound
  split at hfound
  · cases hfound
  split at hfound
  · cases hfound
  split at hfound
  · cases hfound
  exact (Except.ok.inj hfound).symm

end FileSystem

end QueryBuild
