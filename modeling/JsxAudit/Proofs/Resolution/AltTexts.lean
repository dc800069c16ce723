import JsxAudit.Generation.Service
import JsxAudit.Proofs.Label.AltText
import JsxAudit.Proofs.Resolution.Hits

/-!
What the alt texts of images are made of.

A text that comes for an image, as an answer or from the cache, is put into the fix as it is. Only
the empty one is left out, and then the words of the file's name stand in. So an alt text that says
nothing, of blanks and quotation marks alone, is one that has been answered: in the same turn, or in
an earlier one, after which the cache has served it. `alt_isHollow_iff` says so for every run after
any earlier ones.
-/

namespace JsxAudit.Resolution

open Audit Cache Data Generation Source Storage Text

variable {σ : Type} {sv : Services σ} {files : List (String × SourceFile)}
  {s : Session σ} {vs : List Violation} {before later : List (Turn σ)} {t : Turn σ} {q : Query}
  {w : Violation} {used : TokenUsage} {entries : Entries} {stored : List (String × CacheEntry)}
  {request : TextRequest} {state : σ} {text : String}

/-! ### Texts that say nothing -/

/-- The quotation marks of any script. -/
def isQuotationMark (c : Char) : Bool :=
  let n := c.toNat
  n == 0x22 || n == 0x27 || n == 0xAB || n == 0xBB || (0x2018 ≤ n && n ≤ 0x201F) || n == 0x2039 ||
    n == 0x203A || n == 0x2E42 || (0x300C ≤ n && n ≤ 0x300F) || (0x301D ≤ n && n ≤ 0x301F) ||
    (0xFE41 ≤ n && n ≤ 0xFE44) || n == 0xFF02 || n == 0xFF07 || n == 0xFF62 || n == 0xFF63

/-- There is nothing but blanks and quotation marks. -/
def isHollow (text : String) : Bool :=
  text.toList.all fun c => isBlank c || isQuotationMark c

/-- The text is of quotation marks, possibly with blanks. -/
def IsQuotes (text : String) : Prop :=
  isHollow text = true ∧ ∃ c ∈ text.toList, isQuotationMark c = true

theorem IsQuotes.ne_empty (h : IsQuotes text) : text ≠ "" := by
  rintro rfl
  obtain ⟨c, mem, -⟩ := h.2
  cases mem

/-- A trimmed text that is not empty has a character that is not blank. -/
theorem exists_not_isBlank_of_trim (h : trim text ≠ "") :
    ∃ c ∈ (trim text).toList, isBlank c = false := by
  unfold trim trimChars at h ⊢
  rw [String.toList_ofList]
  cases left : (text.toList.dropWhile isBlank).reverse.dropWhile isBlank with
  | nil =>
    rw [left] at h
    exact (h rfl).elim
  | cons c rest =>
    refine ⟨c, by simp, ?_⟩
    have first := List.head?_dropWhile_not isBlank (text.toList.dropWhile isBlank).reverse
    rw [left] at first
    simpa using first

/-- A trimmed text says nothing only if it is of quotation marks, or empty. -/
theorem isQuotes_of_trim (given : trim text ≠ "") (hollow : isHollow (trim text) = true) :
    IsQuotes (trim text) := by
  obtain ⟨c, mem, visible⟩ := exists_not_isBlank_of_trim given
  refine ⟨hollow, c, mem, ?_⟩
  have allowed := List.all_eq_true.mp hollow c mem
  rwa [visible, Bool.false_or] at allowed

/-- The words of a file's name say something. -/
theorem isHollow_filenameAlt {source : String} (h : Label.filenameAlt source = some text) :
    isHollow text = false := by
  obtain ⟨c, first, between, chars, -, -⟩ := Label.exists_of_filenameAlt h
  have mem : 'e' ∈ text.toList := by simp [chars]
  rw [isHollow, List.all_eq_false]
  exact ⟨'e', mem, by decide⟩

/-! ### Answers without blanks at their ends -/

/-- The services trim what they answer. -/
def Services.Trims (sv : Services σ) : Prop :=
  ∀ request state a, (sv.write request state).1 = .ok a → ∃ given, a.text = trim given

/-- An endpoint trims what it answers, however often it is asked. -/
theorem trims_of_write {sv : Services Http.Trace} {e : Endpoint} {net : Http.Network}
    {retries : Nat} (h : sv.write = e.write net retries) : sv.Trims := by
  intro request state a answered
  rw [h] at answered
  unfold Endpoint.write persistently at answered
  dsimp only at answered
  generalize (askAgain (e.ask net request) Http.Trace.pause retries 1 state).1 = outcome at answered
  rcases outcome with (message | fault) | given
  · cases answered
  · cases answered
  · cases answered
    exact ⟨given.text, rfl⟩

/-- What comes back in a turn is what the services have answered. -/
theorem Turn.answered_of_mem_sent {outcome : Except Failure TextAnswer}
    (h : (request, outcome) ∈ t.sent sv files) : ∃ state, outcome = (sv.write request state).1 := by
  obtain ⟨subject, fix, params, f, due⟩ | ⟨absent, -⟩ := due_or_kept files t.violation
  · rw [Turn.sent_of_due due] at h
    unfold sentFor at h
    split at h
    · cases h
    · unfold outgoing at h
      split at h
      · cases h
      · cases List.mem_singleton.mp h
        exact ⟨_, rfl⟩
  · rw [Turn.sent_of_query?_none (Turn.query?_of_not_due absent)] at h
    cases h

/-- What a turn stores has been answered. -/
theorem trimmed_of_mem_stored (trims : sv.Trims) {entry : String × CacheEntry}
    (mem : entry ∈ t.stored sv files) : ∃ given, entry.2.value = trim given := by
  obtain ⟨request, a, key, sent, -, rfl⟩ := Turn.answer_of_mem_stored mem
  obtain ⟨state, answer⟩ := Turn.answered_of_mem_sent sent
  exact trims request state a answer.symm

/-! ### Earlier runs -/

/-- The entries that runs have left one after the other, beginning without any, and what they have
stored on the way. Each run has found the entries that the one before has left. -/
inductive LeftByRuns : Entries → List (String × CacheEntry) → Prop
  | none : LeftByRuns [] []
  | run {σ : Type} {sv : Services σ} (trims : sv.Trims) (files : List (String × SourceFile))
      (vs : List Violation) {s : Session σ} {stored : List (String × CacheEntry)}
      (found : LeftByRuns (s.cache.entries s.disk) stored) :
      LeftByRuns
        ((resolveAll sv files vs s).2.cache.entries (resolveAll sv files vs s).2.disk)
        (stored ++ (turns sv files vs (begun sv vs s)).flatMap (·.stored sv files))

theorem LeftByRuns.eq_update (h : LeftByRuns entries stored) :
    entries = Keyed.update [] stored := by
  induction h with
  | none => rfl
  | @run _ sv _ files vs s stored _ ih =>
    have stores : Stores s _ (resolveAll sv files vs s).2 := (Stores.trail sv).all files vs s
    rw [stores, ih, Keyed.update_update]
    rfl

theorem LeftByRuns.trimmed (h : LeftByRuns entries stored) :
    ∀ entry ∈ stored, ∃ given, entry.2.value = trim given := by
  induction h with
  | none => nofun
  | run trims _ _ _ ih =>
    intro entry mem
    rcases List.mem_append.mp mem with mem | mem
    · exact ih entry mem
    · obtain ⟨t, -, mem⟩ := List.mem_flatMap.mp mem
      exact trimmed_of_mem_stored trims mem

/-! ### One image -/

/-- What has been stored up to a turn. -/
structure FoundAt (t : Turn σ) (said : List (String × CacheEntry)) : Prop where
  entries : t.session.cache.entries t.session.disk = Keyed.update [] said
  trimmed : ∀ entry ∈ said, ∃ given, entry.2.value = trim given

theorem LeftByRuns.foundAt (left : LeftByRuns (s.cache.entries s.disk) stored) (trims : sv.Trims)
    (split : turns sv files vs (begun sv vs s) = before ++ t :: later) :
    FoundAt t (stored ++ before.flatMap (·.stored sv files)) where
  entries := by
    have stores : Stores (begun sv vs s) _ t.session := (Stores.trail sv).upTo split
    obtain ⟨cache, disk⟩ := begun_cache sv vs s
    rw [stores, cache, disk, left.eq_update, Keyed.update_update]
    rfl
  trimmed := by
    intro entry mem
    rcases List.mem_append.mp mem with mem | mem
    · exact left.trimmed entry mem
    · obtain ⟨turn, -, mem⟩ := List.mem_flatMap.mp mem
      exact trimmed_of_mem_stored trims mem

theorem FoundAt.get? {said : List (String × CacheEntry)} (h : FoundAt t said) (key : String) :
    Keyed.get? (t.session.cache.entries t.session.disk) key = Keyed.get? said.reverse key := by
  rw [h.entries, Keyed.get?_update]
  exact Option.or_none

/-- A text has come for the query of a turn: it was the last to be stored under the key, for the
same locale, and nothing was sent, or it is the answer to the request. -/
inductive Came (sv : Services σ) (files : List (String × SourceFile))
    (said : List (String × CacheEntry)) (t : Turn σ) (q : Query) (text : String) : Prop
  | cached {e : CacheEntry} (last : Keyed.get? said.reverse q.key = some e)
      (locale : e.locale = sv.locale) (value : e.value = text) (silent : t.sent sv files = [])
  | answered {a : TextAnswer} (sent : t.sent sv files = [(q.request, .ok a)])
      (value : a.text = text)

section Came

variable {said : List (String × CacheEntry)} {text' : String}

theorem Came.unique (h : Came sv files said t q text) (h' : Came sv files said t q text') :
    text = text' := by
  cases h with
  | cached last _ value silent =>
    cases h' with
    | cached last' _ value' _ =>
      rw [last, Option.some.injEq] at last'
      rw [← value, ← value', last']
    | answered sent _ => nomatch silent.symm.trans sent
  | answered sent value =>
    cases h' with
    | cached _ _ _ silent => nomatch silent.symm.trans sent
    | answered sent' value' =>
      rw [sent] at sent'
      cases sent'
      rw [← value, ← value']

/-- A text that has come is trimmed. -/
theorem Came.trimmed (h : Came sv files said t q text) (found : FoundAt t said)
    (trims : sv.Trims) : ∃ given, text = trim given := by
  cases h with
  | cached last _ value _ =>
    rw [← value]
    exact found.trimmed _ (List.mem_reverse.mp (Keyed.mem_of_lookup last))
  | answered sent value =>
    obtain ⟨state, answer⟩ :=
      Turn.answered_of_mem_sent (sent ▸ List.mem_singleton_self _ : (q.request, _) ∈ _)
    rw [← value]
    exact trims q.request state _ answer.symm

end Came

/-- A query without a text that is known is asked for. -/
theorem Turn.asks?_of_query? (asked : t.query? sv files = some q)
    (unknown : (cached? sv.locale q.key t.session).or q.known = none) :
    ∃ state, t.asks? sv files = some (q.request, state) ∧
      t.sent sv files = [(q.request, (sv.write q.request state).1)] := by
  obtain ⟨subject, fix, params, f, due, looked⟩ := Turn.query?_eq_some_iff.mp asked
  have look := cached?_queryFor sv subject t.violation f params t.session sv.locale q.key
  rcases query : queryFor sv subject t.violation f params t.session with ⟨o, s'⟩
  rw [query] at looked look
  obtain rfl : o = .ok q := looked
  rw [← look] at unknown
  refine ⟨s'.state, ?_, ?_⟩
  · rw [asks?, due.pending, due.found]
    simp [query, unknown]
  · rw [sent_of_due due, sentFor, query]
    simp [outgoing, unknown]

/-- After a turn, the text under a key is the one that it has stored last, or the one before. -/
theorem Turn.get?_after (t : Turn σ) (key : String) :
    (t.after sv files).cache.get? (t.after sv files).disk key =
      (Keyed.get? (t.stored sv files).reverse key).or
        (Keyed.get? (t.session.cache.entries t.session.disk) key) := by
  have stores : Stores t.session (t.stored sv files) (t.after sv files) :=
    (Stores.trail sv).turn files t
  rw [ResultCache.get?, stores, Keyed.get?_update]

/-- For an image the services are asked by the instructions for images. -/
theorem system_of_queryFor_image {v : Violation} {params : Deferred.Params} {f : SourceFile}
    (h : (queryFor sv .image v f params s).1 = .ok q) : q.request.system = imageInstructions := by
  obtain rfl | ⟨image, rfl⟩ := query_of_queryFor_image h
  · rfl
  · rfl

/-- Without an answer an image has the words of its file's name, or no text. -/
theorem offlineFix_image (v : Violation) (fix : Fix) (f : SourceFile) :
    ∃ offline : Option String, offlineFix .image v fix f = .ok (offline.map fix.withText) ∧
      ∀ text, offline = some text → isHollow text = false := by
  refine ⟨_, rfl, fun text h => ?_⟩
  obtain ⟨e, -, h⟩ := Option.bind_eq_some_iff.mp h
  obtain ⟨source, -, made⟩ := Option.bind_eq_some_iff.mp h
  exact isHollow_filenameAlt made

/-- What becomes of the fix of an image. A text that has come is put into it as it is and stays in
the cache, unless it is empty. Without one, the fix has the words of the file's name, or there is no
fix. -/
inductive Filled (sv : Services σ) (files : List (String × SourceFile))
    (said : List (String × CacheEntry)) (t : Turn σ) (q : Query) (fix : Fix) (w : Violation) : Prop
  | came {text : String} {e : CacheEntry} (filled : text ≠ "") (came : Came sv files said t q text)
      (put : w.fix = some (fix.withText text))
      (kept : (t.after sv files).cache.get? (t.after sv files).disk q.key = some e)
      (locale : e.locale = sv.locale) (value : e.value = text)
  | offline {alt : Option String} (nothing : ∀ text, Came sv files said t q text → text = "")
      (put : w.fix = alt.map fix.withText)
      (words : ∀ text, alt = some text → isHollow text = false)

section Filled

variable {said : List (String × CacheEntry)} {fix : Fix} {params : Deferred.Params} {f : SourceFile}

theorem filled_of_cached (found : FoundAt t said) (due : Due files t.violation .image fix params f)
    (asked : t.query? sv files = some q) (hit : cached? sv.locale q.key t.session = some text)
    (ended : (resolveOne sv files t.violation t.session).1 = .ok (w, used)) :
    Filled sv files said t q fix w := by
  obtain ⟨silent, _, _, _, _, due', eq⟩ := resolveOne_of_cached asked hit
  cases due.pending.symm.trans due'.pending
  rw [ended] at eq
  cases eq
  obtain ⟨e, there, locale, value, filled⟩ := cached?_eq_some_iff.mp hit
  have nothing : t.stored sv files = [] := by
    rw [Turn.stored, asked, silent]
    rfl
  have kept : (t.after sv files).cache.get? (t.after sv files).disk q.key = some e := by
    rw [t.get?_after, nothing, there]
    rfl
  exact .came filled (.cached (found.get? _ ▸ there) locale value silent) rfl kept locale value

theorem filled_of_asked (due : Due files t.violation .image fix params f)
    (asked : t.query? sv files = some q) (ready : q.known = none)
    (miss : cached? sv.locale q.key t.session = none)
    (ended : (resolveOne sv files t.violation t.session).1 = .ok (w, used)) :
    Filled sv files said t q fix w := by
  obtain ⟨state, asks, sent⟩ := Turn.asks?_of_query? asked (by rw [miss, ready]; rfl)
  obtain ⟨_, _, _, f', due', eq, -⟩ := Turn.resolveOne_of_asks asks
  cases due.pending.symm.trans due'.pending
  obtain ⟨alt, without, words⟩ := offlineFix_image t.violation fix f'
  rw [ended] at eq
  cases answer : (sv.write q.request state).1 with
  | error failure =>
    rw [answer] at eq sent
    cases failure with
    | fault fault => nomatch eq
    | refused message =>
      rw [decided, without] at eq
      cases eq
      refine .offline (fun text came => ?_) rfl words
      cases came with
      | cached _ _ _ silent => nomatch silent.symm.trans sent
      | answered sent' _ => nomatch sent.symm.trans sent'
  | ok a =>
    rw [answer] at eq sent
    by_cases empty : a.text = ""
    · rw [decided, if_pos empty, without] at eq
      cases eq
      refine .offline (fun text came => ?_) rfl words
      exact (came.unique (.answered sent rfl)).trans empty
    · rw [decided, if_neg empty] at eq
      cases eq
      have one : t.stored sv files = [(q.key, entryOf sv t.violation.rule a.text)] := by
        rw [Turn.stored, asked, sent]
        simp [entriesOf, textOf?, empty]
      have kept : (t.after sv files).cache.get? (t.after sv files).disk q.key =
          some (entryOf sv t.violation.rule a.text) := by
        rw [t.get?_after, one]
        simp [Keyed.get?]
      exact .came empty (.answered sent rfl) rfl kept rfl rfl

theorem exists_filled (found : FoundAt t said) (rule : t.violation.rule = "img-alt")
    (asked : t.query? sv files = some q)
    (ended : (resolveOne sv files t.violation t.session).1 = .ok (w, used)) :
    q.request.system = imageInstructions ∧
      ∃ fix, t.violation.fix = some fix ∧ Filled sv files said t q fix w := by
  obtain ⟨subject, fix, params, f, due, looked⟩ := Turn.query?_eq_some_iff.mp asked
  obtain ⟨named, given, -⟩ := pending?_eq_some_iff.mp due.pending
  have ready : q.known = none := by
    rw [known_of_queryFor named looked, rule]
    rfl
  obtain rfl : subject = .image := by
    rw [rule] at named
    exact (Option.some.inj named).symm
  refine ⟨system_of_queryFor_image looked, fix, given, ?_⟩
  cases hit : cached? sv.locale q.key t.session with
  | some text => exact filled_of_cached found due asked hit ended
  | none => exact filled_of_asked due asked ready hit ended

end Filled

/-- In every run after any earlier ones, the alt text of an image is of blanks and quotation marks
alone exactly if a text of quotation marks has come for it, from the cache or as the answer to the
instructions. Any text that comes is put into the fix as it is, unless it is empty, and the cache has
it afterwards. -/
theorem alt_isHollow_iff (trims : sv.Trims) (left : LeftByRuns (s.cache.entries s.disk) stored)
    (split : turns sv files vs (begun sv vs s) = before ++ t :: later)
    (rule : t.violation.rule = "img-alt") (asked : t.query? sv files = some q)
    (ended : (resolveOne sv files t.violation t.session).1 = .ok (w, used)) :
    let came := Came sv files (stored ++ before.flatMap (·.stored sv files)) t q
    q.request.system = imageInstructions ∧
      ∃ fix alt, t.violation.fix = some fix ∧ w.fix = Option.map fix.withText alt ∧
        ((∃ text, alt = some text ∧ isHollow text = true) ↔ ∃ text, came text ∧ IsQuotes text) ∧
        ∀ text, came text → text ≠ "" → alt = some text ∧
          ∃ e, (t.after sv files).cache.get? (t.after sv files).disk q.key = some e ∧
            e.locale = sv.locale ∧ e.value = text := by
  intro came
  have found := left.foundAt trims split
  obtain ⟨system, fix, given, filled⟩ := exists_filled found rule asked ended
  cases filled with
  | @came text e filled comes put kept locale value =>
    refine ⟨system, fix, some text, given, put, ⟨?_, ?_⟩, fun text' comes' _ => ?_⟩
    · rintro ⟨_, ⟨⟩, hollow⟩
      obtain ⟨source, rfl⟩ := comes.trimmed found trims
      exact ⟨_, comes, isQuotes_of_trim filled hollow⟩
    · rintro ⟨text', comes', quotes⟩
      exact ⟨text', congrArg some (comes.unique comes'), quotes.1⟩
    · rw [← comes.unique comes']
      exact ⟨rfl, e, kept, locale, value⟩
  | @offline alt nothing put words =>
    refine ⟨system, fix, alt, given, put, ⟨?_, ?_⟩, fun text' comes' some => ?_⟩
    · rintro ⟨text, same, hollow⟩
      rw [words text same] at hollow
      cases hollow
    · rintro ⟨text', comes', quotes⟩
      exact (quotes.ne_empty (nothing text' comes')).elim
    · exact (some (nothing text' comes')).elim

/-- A network in which every reply gives the answer which the instructions ask for where an image is
decorative. -/
def decorativeReplies : Http.Network where
  reply _ _ := .response 200 []
    [Text.utf8 "\x7b\"choices\": [\x7b\"message\": \x7b\"content\": \"\\\"\\\"\"\x7d\x7d]\x7d"]

/-- An endpoint that is reached through this network, and no images. -/
def quoting : Services Http.Trace where
  model := "m"
  write := ({ wire := .completions, model := "m" } : Endpoint).write decorativeReplies 0
  image _ _ _ trace := (.ok none, trace)
  locale := "en"
  now := ""

/-- The first run asks, and the second is served by the cache: the text is two quotation marks. -/
theorem alt_isHollow_iff_decorative :
    ∃ f ∈ SourceFile.parse "/p/a.tsx" "<img src=\"/red-bike.png\"/>",
      let vs := Rule.imgAlt.scan {} f
      let first : Session Http.Trace :=
        { state := {}, disk := {}, cache := { folder := "/cache" } }
      let second := (resolveAll quoting [(f.path, f)] vs first).2
      ∃ t w used, turns quoting [(f.path, f)] vs (begun quoting vs second) = [t] ∧
        (resolveOne quoting [(f.path, f)] t.violation t.session).1 = .ok (w, used) ∧
        w.fix.map (·.value) = some (.literal "\"\"") ∧
        second.state.sent.length = 1 ∧ (t.after quoting [(f.path, f)]).state.sent.length = 1 ∧
        ∃ said q text, Came quoting [(f.path, f)] said t q text ∧ IsQuotes text := by
  have computed : ∃ f ∈ SourceFile.parse "/p/a.tsx" "<img src=\"/red-bike.png\"/>",
      let vs := Rule.imgAlt.scan {} f
      let first : Session Http.Trace :=
        { state := {}, disk := {}, cache := { folder := "/cache" } }
      let second := (resolveAll quoting [(f.path, f)] vs first).2
      let ts := turns quoting [(f.path, f)] vs (begun quoting vs second)
      ts.map (·.violation.rule) = ["img-alt"] ∧
        ts.map (fun t => (t.query? quoting [(f.path, f)]).isSome) = [true] ∧
        ts.map (fun t => (resolveOne quoting [(f.path, f)] t.violation t.session).1.toOption.map
          (·.1.fix.map (·.value))) = [some (some (.literal "\"\""))] ∧
        second.state.sent.length = 1 ∧
        ts.map (fun t => (t.after quoting [(f.path, f)]).state.sent.length) = [1] ∧
        Disk.readText? {} (Path.join "/cache" fileName) = none := by
    decide +kernel
  obtain ⟨f, parsed, rule, looks, fixed, asked, state, unread⟩ := computed
  refine ⟨f, parsed, ?_⟩
  intro vs first second
  obtain ⟨t, turn, rule⟩ := List.map_eq_singleton_iff.mp rule
  rw [turn] at looks fixed state
  obtain ⟨q, query⟩ := Option.isSome_iff_exists.mp (List.singleton_inj.mp looks)
  obtain ⟨⟨w, used⟩, ran, value⟩ := Option.map_eq_some_iff.mp (List.singleton_inj.mp fixed)
  have ended := eq_ok_of_toOption ran
  have trims : quoting.Trims := trims_of_write rfl
  have empty : first.cache.entries first.disk = [] :=
    (ResultCache.entries_of_fresh rfl first.disk).trans (ResultCache.stored_of_unread unread)
  have nothing : LeftByRuns (first.cache.entries first.disk) [] := by
    rw [empty]
    exact .none
  have left : LeftByRuns (second.cache.entries second.disk) _ :=
    .run trims [(f.path, f)] vs nothing
  obtain ⟨-, fix, alt, -, put, hollow, -⟩ :=
    alt_isHollow_iff trims left (show _ = [] ++ t :: [] from turn) rule query ended
  have marks : ∃ text, alt = some text ∧ isHollow text = true := by
    rw [show (w, used).1.fix = alt.map fix.withText from put, Option.map_map] at value
    obtain ⟨text, some, same⟩ := Option.map_eq_some_iff.mp value
    cases same
    exact ⟨_, some, by decide⟩
  obtain ⟨text, comes, quotes⟩ := hollow.mp marks
  exact ⟨t, w, used, turn, ended, value, asked, List.singleton_inj.mp state, _, q, text, comes,
    quotes⟩

end JsxAudit.Resolution
