import ImportContext.FileSystem.Basic

/-!
# What a run changed

The directories and files of one file system that another one does not have in the same form.
-/

namespace ImportContext

/-- A step that brings one file system closer to another. -/
inductive Change where
  | makeDirectory (path : Path)
  | writeFile (path : Path) (bytes : ByteArray)

mutual

/-- The directories and files at or below an entry, parents first. -/
def Entry.listing (above : List String) (e : Entry) : List (List String × Option ByteArray) :=
  match e with
  | .directory name entries => (above ++ [name], none) :: listingOfAll (above ++ [name]) entries
  | .file name bytes _ => [(above ++ [name], some bytes)]
  | .link _ _ => []

/-- The directories and files among entries and below them. -/
def Entry.listingOfAll (above : List String) (entries : List Entry) :
    List (List String × Option ByteArray) :=
  match entries with
  | [] => []
  | e :: rest => e.listing above ++ listingOfAll above rest

end

/-- The steps that bring the first file system to what the second one holds, parents first. -/
def FileSystem.changesTo (before after : FileSystem) : List Change :=
  (Entry.listingOfAll [] after.top).filterMap fun (names, content) =>
    match content, before.entry? names with
    | none, none => some (.makeDirectory (Path.ofNames names))
    | none, some _ => none
    | some bytes, some (.file _ old _) =>
      if old == bytes then none else some (.writeFile (Path.ofNames names) bytes)
    | some bytes, _ => some (.writeFile (Path.ofNames names) bytes)

end ImportContext
