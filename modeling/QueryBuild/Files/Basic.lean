/-!
# Files as a value

The files of a computer are a table from locations to entries. A location is the list of names that
lead to an entry from the root; the root itself is always a directory.
-/

namespace QueryBuild

/-- A moment, in nanoseconds since the epoch. -/
abbrev Instant := Int

/-- The bytes of a file's name. -/
abbrev FileName := List UInt8

namespace FileName

def ofText (s : String) : FileName :=
  s.toUTF8.toList

def bytes (name : FileName) : ByteArray :=
  ⟨name.toArray⟩

def text? (name : FileName) : Option String :=
  String.fromUTF8? name.bytes

def before : FileName → FileName → Bool
  | [], _ => true
  | _ :: _, [] => false
  | x :: xs, y :: ys => x < y || (x == y && before xs ys)

end FileName

/-- The names that lead from the root to an entry. -/
abbrev Location := List FileName

inductive Entry where
  | file (contents : ByteArray) (modified : Instant) (executable : Bool)
  | directory (modified : Instant)
  | link (target : String)

namespace Entry

instance : Inhabited Entry := ⟨.directory 0⟩

def isFile : Entry → Bool
  | file _ _ _ => true
  | _ => false

def isDirectory : Entry → Bool
  | directory _ => true
  | _ => false

/-- When an entry was modified; a link has no time of its own. -/
def modified : Entry → Instant
  | file _ modified _ => modified
  | directory modified => modified
  | link _ => 0

def touch (entry : Entry) (time : Instant) : Entry :=
  match entry with
  | file contents _ executable => file contents time executable
  | directory _ => directory time
  | link target => link target

end Entry

/-- The files of a computer, the directory in which it works, and its clock. -/
structure FileSystem where
  entries : List (Location × Entry)
  workingDirectory : Location
  now : Instant

namespace FileSystem

instance : Inhabited FileSystem := ⟨⟨[], [], 0⟩⟩

def get? (fs : FileSystem) (location : Location) : Option Entry :=
  match location with
  | [] => some (((fs.entries.lookup []).filter Entry.isDirectory).getD (.directory 0))
  | _ => fs.entries.lookup location

def put (fs : FileSystem) (location : Location) (entry : Entry) : FileSystem :=
  { fs with
    entries := (location, entry) :: fs.entries.filter fun known => known.1 != location }

/-- Takes away what lies at or below a location. -/
def drop (fs : FileSystem) (location : Location) : FileSystem :=
  { fs with entries := fs.entries.filter fun known => !location.isPrefixOf known.1 }

theorem lookup_filter_ne {location other : Location} (h : other ≠ location)
    (entries : List (Location × Entry)) :
    (entries.filter fun known => known.1 != location).lookup other = entries.lookup other := by
  induction entries with
  | nil => rfl
  | cons known entries ih =>
    obtain ⟨at_, entry⟩ := known
    by_cases hk : at_ = location
    · subst hk
      have hne : (other == at_) = false := by simpa using h
      simp [List.lookup_cons, hne, ih]
    · have hk' : (at_ != location) = true := by simpa using hk
      simp only [List.filter_cons, hk', if_true, List.lookup_cons]
      split
      · rfl
      · exact ih

theorem get?_put_self (fs : FileSystem) {location : Location} (h : location ≠ [])
    (entry : Entry) : (fs.put location entry).get? location = some entry := by
  cases location with
  | nil => exact absurd rfl h
  | cons name rest => simp [get?, put]

theorem get?_put_of_ne (fs : FileSystem) {location other : Location} (h : other ≠ location)
    (entry : Entry) : (fs.put location entry).get? other = fs.get? other := by
  have hl : (fs.put location entry).entries.lookup other = fs.entries.lookup other := by
    have hne : (other == location) = false := by simpa using h
    simp only [put, List.lookup_cons, hne]
    exact lookup_filter_ne h fs.entries
  cases other with
  | nil => simp only [get?, hl]
  | cons name rest => simp only [get?, hl]

end FileSystem

end QueryBuild
