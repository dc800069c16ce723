import JsxAudit.Proofs.Asset.Comments
import JsxAudit.Proofs.Data.JsonRoundTrip
import JsxAudit.Proofs.Storage.Files
import JsxAudit.Proofs.Text.Bytes

/-!
The table of aliases is the one that `tsconfig.json` denotes.

What the document says is read off the text without its comments and without the commas in front of
closing brackets, wherever they stand (`reference`). The patterns of the program do not know about
strings, so that this holds only for documents in which nothing else looks like a comment or like
such a comma (`Apart`, `AliasTable.read_of_apart`). White space may be lost on the way, which
changes nothing.
-/

namespace JsxAudit.Asset

open Data Storage

/-! ### The document that is meant -/

/-- The characters from a place on, without the commas outside of strings that a closing bracket
follows. -/
def withoutCommas : Json.Part → List Char → List Char
  | _, [] => []
  | .code, '"' :: cs => '"' :: withoutCommas .string cs
  | .code, c :: cs =>
    if c = ',' ∧ closesNext cs then withoutCommas .code cs else c :: withoutCommas .code cs
  | .string, '"' :: cs => '"' :: withoutCommas .code cs
  | .string, '\\' :: c :: cs => '\\' :: c :: withoutCommas .string cs
  | .string, c :: cs => c :: withoutCommas .string cs

def uncommented (s : String) : List Char :=
  chars (withoutComments (labelled .code s.toList))

/-- The text without its comments and without the commas in front of closing brackets. -/
def reference (s : String) : String :=
  String.ofList (withoutCommas .code (uncommented s))

/-- No comma in a string has a closing bracket next to it, blanks apart. -/
def commasApart : Json.Part → List Char → Bool
  | _, [] => true
  | .code, '"' :: cs => commasApart .string cs
  | .code, _ :: cs => commasApart .code cs
  | .string, '"' :: cs => commasApart .code cs
  | .string, '\\' :: c :: cs => !(c == ',' && closesNext cs) && commasApart .string cs
  | .string, c :: cs => !(c == ',' && closesNext cs) && commasApart .string cs

/-- Patterns that do not know where strings and comments are keep them apart. -/
structure Apart (s : String) : Prop where
  blocks : blocksApart (labelled .code s.toList) = true
  lines : linesAlone true (withoutBlocks (labelled .code s.toList)) = true
  commas : commasApart .code (uncommented s) = true

/-! ### Commas -/

theorem closesNext_respaced {part : Json.Part} {cs cs' : List Char}
    (h : Json.Respaced part cs cs') : closesNext cs = closesNext cs' := by
  have skip {bs : List Char} (blank : ∀ c ∈ bs, Json.isSpace c = true) (cs : List Char) :
      closesNext (bs ++ cs) = closesNext cs := by
    rw [closesNext, List.dropWhile_append_of_pos fun c mem => isBlank_of_isSpace (blank c mem)]
    rfl
  have step {cs cs' : List Char} (c : Char) (h : closesNext cs = closesNext cs') :
      closesNext (c :: cs) = closesNext (c :: cs') := by
    cases blank : Text.isBlank c with
    | true =>
      rw [closesNext, closesNext, List.dropWhile_cons_of_pos blank,
        List.dropWhile_cons_of_pos blank]
      exact h
    | false => simp [closesNext, blank]
  induction h with
  | finish blank blank' =>
    have none := skip blank []
    have none' := skip blank' []
    rw [List.append_nil] at none none'
    rw [none, none']
  | space blank blank' _ ih =>
    rw [← List.cons_append, skip blank, ← List.cons_append, skip blank', ih]
  | char _ _ ih => exact step _ ih
  | opening | closing | cut | cutEscape | escape => rfl
  | inside _ _ _ ih => exact step _ ih

theorem withoutCommas_code {c : Char} {cs : List Char} (quote : c ≠ '"') :
    withoutCommas .code (c :: cs) =
      if c = ',' ∧ closesNext cs then withoutCommas .code cs else c :: withoutCommas .code cs := by
  rw [withoutCommas]
  exact quote

theorem withoutCommas_inside {c : Char} {cs : List Char} (quote : c ≠ '"') (slash : c ≠ '\\') :
    withoutCommas .string (c :: cs) = c :: withoutCommas .string cs := by
  rw [withoutCommas]
  · exact quote
  · exact fun _ _ eq => absurd eq slash

/-- White space stays where it is. -/
theorem withoutCommas_blank {bs : List Char} (blank : ∀ c ∈ bs, Json.isSpace c = true)
    (cs : List Char) : dropCommas (bs ++ cs) = bs ++ dropCommas cs ∧
      withoutCommas .code (bs ++ cs) = bs ++ withoutCommas .code cs := by
  induction bs with
  | nil => exact ⟨rfl, rfl⟩
  | cons b bs ih =>
    obtain ⟨first, others⟩ := List.forall_mem_cons.mp blank
    obtain ⟨left, left'⟩ := ih others
    have comma : b ≠ ',' := by
      rintro rfl
      cases first
    have quote : b ≠ '"' := by
      rintro rfl
      cases first
    rw [List.cons_append, dropCommas, withoutCommas_code quote, if_neg fun h => comma h.1,
      if_neg fun h => comma h.1, left, left']
    exact ⟨rfl, rfl⟩

theorem commasApart_blank {bs cs : List Char} (blank : ∀ c ∈ bs, Json.isSpace c = true)
    (apart : commasApart .code (bs ++ cs) = true) : commasApart .code cs = true := by
  induction bs with
  | nil => exact apart
  | cons b bs ih =>
    obtain ⟨first, others⟩ := List.forall_mem_cons.mp blank
    rw [List.cons_append, commasApart] at apart
    · exact ih others apart
    · rintro rfl
      cases first

/-- A comma of a string stays. -/
theorem dropCommas_apart {c : Char} {cs : List Char} (apart : (c == ',' && closesNext cs) = false) :
    dropCommas (c :: cs) = c :: dropCommas cs := by
  rw [dropCommas, if_neg]
  rintro ⟨rfl, closes⟩
  rw [closes] at apart
  cases apart

theorem commasApart_inside {c : Char} {cs : List Char} (quote : c ≠ '"') (slash : c ≠ '\\')
    (apart : commasApart .string (c :: cs) = true) :
    (c == ',' && closesNext cs) = false ∧ commasApart .string cs = true := by
  rw [commasApart, Bool.and_eq_true, Bool.not_eq_true'] at apart
  · exact apart
  · exact quote
  · exact fun _ _ eq => absurd eq slash

theorem respaced_dropCommas {part : Json.Part} {cs cs' : List Char}
    (h : Json.Respaced part cs cs') (apart : commasApart part cs' = true) :
    Json.Respaced part (dropCommas cs) (withoutCommas part cs') := by
  induction h with
  | finish blank blank' =>
    have left := (withoutCommas_blank blank []).1
    have left' := (withoutCommas_blank blank' []).2
    rw [List.append_nil] at left left'
    rw [left, left']
    exact .finish (by simpa [dropCommas] using blank) (by simpa [withoutCommas] using blank')
  | @space b b' bs bs' cs cs' blank blank' after ih =>
    rw [← List.cons_append, (withoutCommas_blank blank cs).1, ← List.cons_append,
      (withoutCommas_blank blank' cs').2]
    exact .space blank blank' (ih (commasApart_blank blank' apart))
  | @char c cs cs' quote after ih =>
    rw [dropCommas, closesNext_respaced after, withoutCommas_code quote]
    rw [commasApart] at apart
    · split
      · exact ih apart
      · exact .char quote (ih apart)
    · exact quote
  | opening after ih => exact .opening (ih apart)
  | closing after ih => exact .closing (ih apart)
  | @escape c cs cs' after ih =>
    rw [commasApart, Bool.and_eq_true, Bool.not_eq_true', ← closesNext_respaced after] at apart
    have kept : dropCommas ('\\' :: c :: cs) = '\\' :: c :: dropCommas cs := by
      rw [dropCommas_apart rfl, dropCommas_apart apart.1]
    rw [kept]
    exact .escape (ih apart.2)
  | @inside c cs cs' quote slash after ih =>
    obtain ⟨first, apart⟩ := commasApart_inside quote slash apart
    rw [← closesNext_respaced after] at first
    rw [dropCommas_apart first, withoutCommas_inside quote slash]
    exact .inside quote slash (ih apart)
  | cut => exact .cut
  | cutEscape => exact .cutEscape

theorem tidy_of_withoutCommas {part : Json.Part} {cs : List Char}
    (h : Json.Tidy false part (withoutCommas part cs)) : Json.Tidy false part cs := by
  fun_induction withoutCommas part cs with
  | case1 => exact h
  | case2 cs ih =>
    cases h with
    | char code => cases code
    | opening h => exact .opening (ih h)
  | case3 c cs quote drop ih =>
    rw [drop.1]
    exact .char rfl (fun h => nomatch h) (ih h)
  | case4 c cs quote keep ih =>
    cases h with
    | char code _ h => exact .char code (fun h => nomatch h) (ih h)
    | opening => exact (quote rfl).elim
  | case5 cs ih =>
    cases h with
    | closing h => exact .closing (ih h)
    | inside plain => exact absurd rfl plain
  | case6 c cs ih =>
    cases h with
    | escape line h => exact .escape line (ih h)
    | inside _ plain => exact absurd rfl plain
  | case7 c cs quote single ih =>
    have last (slash : c = '\\') : withoutCommas .string cs = [] := by
      cases cs with
      | nil => rfl
      | cons d cs => exact (single d cs slash rfl).elim
    obtain ⟨slash, line, h⟩ := h.of_inside quote last
    exact .inside quote slash line (ih h)

/-- The pattern sees no closing bracket where the text goes on with something else. -/
theorem closesNext_of_goesOn {cs : List Char} {strict : Bool} (h : Json.Tidy strict .code cs)
    (goes : Json.GoesOn cs) : closesNext cs = false := by
  generalize part_eq : Json.Part.code = part at h
  induction h with
  | finish => rfl
  | @char c cs code _ _ ih =>
    cases blank : Text.isBlank c with
    | true =>
      have space := (Json.isCode_iff.mp code).2.2 blank
      have skip : Json.skipSpace (c :: cs) = Json.skipSpace cs := List.dropWhile_cons_of_pos space
      rw [closesNext, List.dropWhile_cons_of_pos blank]
      exact ih (by rwa [Json.GoesOn, skip] at goes) rfl
    | false =>
      have seen : Json.isSpace c = false := by
        rw [← Bool.not_eq_true]
        exact fun space => Bool.false_ne_true (blank.symm.trans (isBlank_of_isSpace space))
      have front : Json.skipSpace (c :: cs) = c :: cs :=
        List.dropWhile_cons_of_neg (by rw [seen]; decide)
      rw [Json.GoesOn, front] at goes
      have other := goes c rfl
      simp [closesNext, blank, other.1, other.2]
  | opening => rfl
  | _ => cases part_eq

theorem withoutCommas_of_tidy {part : Json.Part} {cs : List Char} (h : Json.Tidy true part cs) :
    withoutCommas part cs = cs := by
  induction h with
  | finish => rfl
  | @char c cs code goes after ih =>
    rw [withoutCommas_code (Json.isCode_iff.mp code).1, if_neg, ih]
    rintro ⟨comma, closes⟩
    rw [closesNext_of_goesOn after (goes rfl comma)] at closes
    cases closes
  | opening _ ih => exact congrArg ('"' :: ·) ih
  | closing _ ih => exact congrArg ('"' :: ·) ih
  | @escape c cs _ _ ih => exact congrArg ('\\' :: c :: ·) ih
  | @inside c cs quote slash _ _ ih => rw [withoutCommas_inside quote slash, ih]

/-- A document without comments and without commas in front of brackets stays as it is. -/
theorem reference_of_denotes {s : String} {v : Value} (h : Json.Denotes s v) : reference s = s := by
  have tidy : Json.Tidy true .code s.toList := h.tidy
  have text : uncommented s = s.toList := withoutComments_of_tidy tidy
  rw [reference, text, withoutCommas_of_tidy tidy, String.ofList_toList]

/-! ### The whole document -/

/-- The program reads the text that is meant, up to white space. -/
theorem respaced_plainJson {s : String} (apart : Apart s)
    (tidy : Json.Tidy false .code (reference s).toList) :
    Json.Respaced .code (plainJson s).toList (reference s).toList := by
  rw [reference, String.toList_ofList] at tidy ⊢
  rw [plainJson, String.toList_ofList]
  have blocks := @dropBlocks_labelled .code s.toList s.toList apart.blocks rfl
  have lined := @lined_labelled .code s.toList true apart.lines (tidy_of_withoutCommas tidy)
    fun h => nomatch h
  have kept : Kept true .code (chars (withoutBlocks (labelled .code s.toList))) (uncommented s) :=
    lined.kept
  rw [blocks]
  exact respaced_dropCommas (kept.2 true fun _ => .inl rfl) apart.commas

/-! ### The table -/

/-- If strings and comments are apart, the table of a project is that of the value which
`tsconfig.json` denotes without its comments and without the commas in front of closing brackets. A
document that has neither denotes the same as it is. -/
theorem AliasTable.read_of_apart {d : Disk} {root s : String}
    (readable : d.readText? (Path.join root configName) = some s) (apart : Apart s) {v : Value}
    (short : Json.Short v) :
    (Json.Denotes (reference s) v →
      AliasTable.read d root = AliasTable.ofValue root (Json.settled v)) ∧
    (Json.Denotes s v → AliasTable.read d root = AliasTable.ofValue root (Json.settled v)) := by
  have meant (denotes : Json.Denotes (reference s) v) :
      AliasTable.read d root = AliasTable.ofValue root (Json.settled v) := by
    have same := (respaced_plainJson apart denotes.tidy).symm
    have read : Json.read? (plainJson s) = some (Json.settled v) :=
      Json.read?_of_denotes (denotes.respaced same) short
    unfold AliasTable.read
    rw [readable]
    simp only [Option.bind_some, read]
  exact ⟨meant, fun denotes => meant (by rwa [reference_of_denotes denotes])⟩

/-- A `tsconfig.json` with an alias, a comment of each kind, and commas in front of brackets. -/
def config : String :=
  "// Aliases.\n\x7b/* From here. */\n  \"compilerOptions\": \x7b\n    \"paths\": \x7b\n      " ++
    "\"@/*\": [\n        \"./src/*\",\n      ]\n    \x7d,\n  \x7d\n\x7d"

theorem read_of_apart_config :
    let d : Disk := ({} : Disk).put "/tsconfig.json" (.file (Text.utf8 config))
    let v : Value :=
      .table [("compilerOptions", .table [("paths", .table [("@/*", .list [.str "./src/*"])])])]
    d.readText? (Path.join "/" configName) = some config ∧ Apart config ∧ Json.Short v ∧
      Json.Denotes (reference config) v ∧
      AliasTable.read d "/" = .ok ⟨"/", [("@/*", .list [.str "./src/*"])]⟩ := by
  intro d v
  have checks : (reference config).toList = '\n' :: (Json.write .unicode v).toList ∧
      '\r' ∉ config.toList ∧ blocksApart (labelled .code config.toList) = true ∧
      linesAlone true (withoutBlocks (labelled .code config.toList)) = true ∧
      commasApart .code (uncommented config) = true := by
    decide +kernel
  obtain ⟨meant, noReturns, blocks, lines, commas⟩ := checks
  have readable : d.readText? (Path.join "/" configName) = some config := by
    have found : d.locate? (Path.join "/" configName) = some "/tsconfig.json" := by decide +kernel
    have file : d.fileAt? "/tsconfig.json" = some (Text.utf8 config) := rfl
    rw [Disk.readText?_of_locate? found, file, Option.bind_some, Text.decode?_utf8, Option.map_some,
      Text.withLineFeeds_of_not_mem noReturns]
  have plain : Json.Plain v :=
    .table (List.forall_mem_singleton.mpr (.table (List.forall_mem_singleton.mpr (.table
      (List.forall_mem_singleton.mpr (.list (List.forall_mem_singleton.mpr (.str _))))
      (List.nodup_singleton _))) (List.nodup_singleton _))) (List.nodup_singleton _)
  have denotes : Json.Denotes (reference config) v :=
    @Json.denotes_padded .unicode _ v ['\n'] [] plain.exact (List.forall_mem_singleton.mpr rfl)
      nofun (by simpa using meant)
  have apart : Apart config := ⟨blocks, lines, commas⟩
  refine ⟨readable, apart, plain.short, denotes, ?_⟩
  rw [(AliasTable.read_of_apart readable apart plain.short).1 denotes, plain.settled_eq]
  rfl

end JsxAudit.Asset
