import JsxAudit.Text.Blank

/-!
Paths as texts: segments between slashes, the name at the end, its stem and its suffix.
-/

namespace JsxAudit.Text

/-- The path with every backslash turned into a slash. -/
def withSlashes (path : String) : String :=
  String.ofList (path.toList.map fun c => if c = '\\' then '/' else c)

/-- Segments that name something: neither empty nor a single dot. -/
def pathSegments (path : String) : List String :=
  (splitOn '/' path).filter fun s => s != "" && s != "."

/-- The last segment, empty if there is none. -/
def pathName (path : String) : String :=
  (pathSegments path).getLast?.getD ""

/-- A name without its last suffix. A dot at either end of the name begins no suffix. -/
def stemOf (name : String) : String :=
  match name.toList.reverse.dropWhile (· != '.') with
  | '.' :: front =>
    if front.isEmpty || name.toList.getLast? == some '.' then name
    else String.ofList front.reverse
  | _ => name

def pathStem (path : String) : String :=
  stemOf (pathName path)

/-- Segments with the steps up and the idle ones carried out. A step up at the top stays there. -/
def normalSegments (segments : List String) : List String :=
  (segments.foldl (fun (done : List String) s =>
    if s = "" || s = "." then done
    else if s = ".." then done.drop 1
    else s :: done) []).reverse

/-- A text with another one at its end. -/
def endsWith (ending s : String) : Bool :=
  ending.toList.isSuffixOf s.toList

/-- The rest of the characters after those of `start`. -/
def dropStart (start cs : List Char) : Option (List Char) :=
  if start.isPrefixOf cs then some (cs.drop start.length) else none

theorem dropStart_append (start rest : List Char) : dropStart start (start ++ rest) = some rest := by
  simp [dropStart]

theorem dropStart_eq_some_iff {start cs rest : List Char} :
    dropStart start cs = some rest ↔ cs = start ++ rest := by
  constructor
  · intro h
    unfold dropStart at h
    split at h
    · rename_i starts
      obtain ⟨behind, rfl⟩ := List.isPrefixOf_iff_prefix.mp starts
      rw [List.drop_left] at h
      rw [Option.some.inj h]
    · cases h
  · rintro rfl
    exact dropStart_append start rest

/-- The rest of a text after its beginning. -/
def after? (start s : String) : Option String :=
  (dropStart start.toList s.toList).map String.ofList

theorem after?_eq_some_iff {start s rest : String} : after? start s = some rest ↔ s = start ++ rest := by
  unfold after?
  rw [Option.map_eq_some_iff]
  constructor
  · rintro ⟨behind, found, rfl⟩
    rw [← String.toList_inj, dropStart_eq_some_iff.mp found]
    simp
  · rintro rfl
    exact ⟨rest.toList, by rw [String.toList_append, dropStart_append], String.ofList_toList⟩

/-- The characters occur somewhere in a row. -/
def occursIn (part : List Char) : List Char → Bool
  | [] => part.isEmpty
  | c :: cs => part.isPrefixOf (c :: cs) || occursIn part cs

/-- A text with another one inside it. -/
def contains (part s : String) : Bool :=
  occursIn part.toList s.toList

end JsxAudit.Text
