import SampleTypes.Files.Basic

/-!
# What becomes of files

Making directories changes no file: a directory is only made where nothing stands. Writing puts one
file in its place and changes no other, and the way to that place is the same afterwards, because it
leads through directories only; so what was written once can be written again.

## Main definitions

* `Files.file?` — the bytes of the file in a place

## Main results

* `Files.file?_makeDirectories` — making directories changes no file
* `Files.write_eq_ok_iff` — which writes succeed, and what they change
* `Files.write_write` — a file that was written is written again
-/

namespace SampleTypes.Files

/-- The bytes of the file in a place, if there is one. -/
def file? (files : Files) (location : Location) : Option (List UInt8) :=
  match files.node? location with
  | some (.file bytes) => some bytes
  | _ => none

variable {files made : Files} {path : FilePath} {location other : Location}

theorem node?_nil (files : Files) : files.node? [] = some .directory := rfl

theorem ne_nil_of_node? (h : files.node? location ≠ some .directory) : location ≠ [] := by
  rintro rfl
  exact h (node?_nil files)

theorem file?_put_self (h : files.node? location ≠ some .directory) (bytes : List UInt8) :
    (files.put location (.file bytes)).file? location = some bytes := by
  rw [file?, node?_put_self files (ne_nil_of_node? h)]

theorem file?_put_of_ne (h : other ≠ location) (node : Node) :
    (files.put location node).file? other = files.file? other := by
  rw [file?, node?_put_of_ne files h, file?]

/-! ## Directories -/

/-- Where nothing stood, a directory takes the place of no file. -/
theorem file?_put_directory (h : files.node? location = none) :
    (files.put location .directory).file? = files.file? := by
  funext other
  by_cases here : other = location
  · have free : files.node? location ≠ some .directory := by
      rw [h]
      exact nofun
    have nonempty : location ≠ [] := ne_nil_of_node? free
    rw [here, file?, node?_put_self files nonempty, file?, h]
  · exact file?_put_of_ne here _

theorem file?_makeDirectory (h : files.makeDirectory path = .ok made) :
    made.file? = files.file? := by
  rw [makeDirectory] at h
  cases located : files.locate path with
  | error fault => rw [located] at h; cases h
  | ok location =>
    rw [located] at h
    cases stands : files.node? location with
    | some node => simp [bind, Except.bind, stands] at h
    | none =>
      simp only [bind, Except.bind, stands] at h
      cases h
      exact file?_put_directory stands

theorem file?_ensureDirectory (files : Files) (path : FilePath) :
    (files.ensureDirectory path).1.file? = files.file? := by
  rw [ensureDirectory]
  cases attempt : files.makeDirectory path with
  | ok made => exact file?_makeDirectory attempt
  | error fault => rfl

theorem file?_makeDirectoriesFrom (start : PathStart) (files : Files) (names : List Text) :
    (files.makeDirectoriesFrom start names).1.file? = files.file? := by
  -- From the last name on: the directory above is made first, and changes no file.
  induction names with
  | nil => exact file?_ensureDirectory files _
  | cons name names ih =>
    rw [makeDirectoriesFrom]
    split
    · split
      · rename_i above outcome
        rw [outcome] at ih
        exact (file?_ensureDirectory above _).trans ih
      · exact ih
    · exact file?_ensureDirectory files _

/-- Making directories changes no file, whether or not it succeeds. -/
theorem file?_makeDirectories (files : Files) (path : FilePath) :
    (files.makeDirectories path).1.file? = files.file? :=
  file?_makeDirectoriesFrom path.start files path.names.reverse

/-! ## Writing -/

/-- The way to a place leads through directories, so it is the same when a file is put where none
stands. -/
theorem follow_put (h : files.node? location ≠ some .directory) (bytes : List UInt8)
    {start : Location} {names : List Text} {goal : Location}
    (way : files.follow start names = .ok goal) :
    (files.put location (.file bytes)).follow start names = .ok goal := by
  induction names generalizing start with
  | nil => exact way
  | cons name names ih =>
    rw [follow] at way
    cases stands : files.node? start with
    | none => rw [stands] at way; cases way
    | some node =>
      cases node with
      | file _ => rw [stands] at way; cases way
      | directory =>
        have away : start ≠ location := by
          rintro rfl
          exact h stands
        rw [stands] at way
        rw [follow, node?_put_of_ne files away, stands]
        simp only at way ⊢
        by_cases up : name = FilePath.above
        · rw [if_pos up] at way ⊢
          exact ih way
        · rw [if_neg up] at way ⊢
          by_cases long : maxNameBytes < name.systemLength
          · rw [if_pos long] at way
            cases way
          · rw [if_neg long] at way ⊢
            exact ih way

theorem locate_put (h : files.node? location ≠ some .directory) (bytes : List UInt8)
    (located : files.locate path = .ok other) :
    (files.put location (.file bytes)).locate path = .ok other := by
  rw [locate] at located ⊢
  by_cases long : maxPathBytes < path.text.systemLength
  · rw [if_pos long] at located
    cases located
  · rw [if_neg long] at located ⊢
    exact follow_put h bytes located

theorem write_eq_ok_iff (files : Files) (path : FilePath) (bytes : List UInt8) (after : Files) :
    files.write path bytes = .ok after ↔
      ∃ location, files.locate path = .ok location ∧ files.node? location ≠ some .directory ∧
        after = files.put location (.file bytes) := by
  rw [write]
  cases located : files.locate path with
  | error fault => simp
  | ok location =>
    by_cases directory : files.node? location = some .directory
    · simp [directory]
    · simp only [if_neg directory, Except.ok.injEq]
      constructor
      · rintro rfl
        exact ⟨location, rfl, directory, rfl⟩
      · rintro ⟨_, rfl, _, rfl⟩
        rfl

/-- What was written once is written again. -/
theorem write_write {first : List UInt8} (h : files.write path first = .ok made)
    (second : List UInt8) : ∃ after, made.write path second = .ok after := by
  obtain ⟨location, located, free, rfl⟩ := (write_eq_ok_iff files path first made).1 h
  have here : (files.put location (.file first)).node? location ≠ some .directory := by
    rw [node?_put_self files (ne_nil_of_node? free)]
    exact nofun
  have again := locate_put free first located
  exact ⟨_, (write_eq_ok_iff _ path second _).2 ⟨location, again, here, rfl⟩⟩

end SampleTypes.Files
