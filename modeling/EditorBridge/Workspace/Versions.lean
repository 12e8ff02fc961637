import EditorBridge.Bridge.Outbound

/-!
# Versions of files

A server wants to know the version of every content it is told about, and editors need not count.
The bridge counts for them: opening a file without a version starts at `defaultOpenVersion`, and a
change without a version is one more than the version of the file so far. A version that the editor
gives is taken as it is, and counting goes on from there. `prepare` completes a request so, and with
the language of an opened file where the editor does not name one.

A version has 32 bits, and the sum that counts on is checked. The call that would count on from the
greatest version dies of it: nothing has been noted then, and nothing is completed.
-/

namespace EditorBridge

/-- The version of each file that has been told about, no file twice (`Service`). -/
abbrev Versions := List (String × Int32)

namespace Versions

/-- The version of a file (`Service::document_version`). -/
def get? (file : String) : Versions → Option Int32
  | [] => none
  | (key, version) :: rest => if key = file then some version else get? file rest

/-- The versions with the one of a file set. -/
def set (file : String) (version : Int32) : Versions → Versions
  | [] => [(file, version)]
  | (key, old) :: rest =>
      if key = file then (file, version) :: rest else (key, old) :: set file version rest

/-- The version after the one that a file has; a file without one counts from zero
(`Service::prepare`). There is none after the greatest one. -/
def next? (versions : Versions) (file : String) : Option Int32 :=
  let before := (versions.get? file).getD 0
  if before = Int32.maxValue then none else some (before + 1)

/-- Completes a request, and notes the version that it tells (`Service::prepare`). There is no
completed request if the call dies. -/
def prepare (language : Option String) (versions : Versions) : Request → Versions × Option Request
  | .openFile opened =>
      let version := opened.version.getD defaultOpenVersion
      (versions.set opened.file version,
        some (.openFile
          { opened with version := some version, languageId := opened.languageId.or language }))
  | .changeFile edit =>
      match edit.version.or (versions.next? edit.file) with
      | some version =>
          (versions.set edit.file version, some (.changeFile { edit with version := some version }))
      | none => (versions, none)
  | request => (versions, some request)

theorem get?_set_self (file : String) (version : Int32) (versions : Versions) :
    get? file (set file version versions) = some version := by
  induction versions with
  | nil => simp [set, get?]
  | cons entry rest ih =>
      obtain ⟨key, old⟩ := entry
      simp only [set]
      split
      · simp [get?]
      · next different => simp [get?, different, ih]

theorem get?_set_of_ne {file other : String} (version : Int32) (versions : Versions)
    (different : other ≠ file) : get? other (set file version versions) = get? other versions := by
  induction versions with
  | nil => simp [set, get?, Ne.symm different]
  | cons entry rest ih =>
      obtain ⟨key, old⟩ := entry
      simp only [set]
      split
      · next same => subst same; simp [get?, Ne.symm different]
      · simp [get?, ih]

end Versions

end EditorBridge
