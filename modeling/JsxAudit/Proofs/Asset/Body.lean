import JsxAudit.Asset.Load

/-!
The body that a fetch gives.

Redirections lead to one last reply (`LastReply`). If that is a success, the file is the whole body
or, where this is too large, nothing, and the same is read from a disk that holds the body in a file
(`fetch_body`). The pieces in which bodies arrive do not matter to any fetch (`fetch_recut`).
-/

namespace JsxAudit.Asset

open Data Http Storage

variable {net : Network} {reply : List Request → Request → Reply} {limit left status : Nat}
  {url : String} {t : Trace}
  {chunks : List (List UInt8)}

/-! ### The last reply -/

/-- After at most `left` redirections, a request for the address ends in a reply that leads nowhere
else. -/
inductive LastReply (net : Network) (status : Nat) (chunks : List (List UInt8)) :
    Nat → String → Trace → Prop
  | here {left : Nat} {url : String} {t after : Trace} {headers : List (String × String)}
      (sent : net.send { method := .get, url } t = (.response status headers chunks, after))
      (stays : net.redirect? url status headers = none) : LastReply net status chunks left url t
  | redirected {left between : Nat} {url target : String} {t after : Trace}
      {headers : List (String × String)} {pieces : List (List UInt8)}
      (sent : net.send { method := .get, url } t = (.response between headers pieces, after))
      (leads : net.redirect? url between headers = some target)
      (last : LastReply net status chunks left target after) :
      LastReply net status chunks (left + 1) url t

theorem LastReply.fetchFrom (h : LastReply net status chunks left url t) (limit : Nat) :
    (fetchFrom net limit left url t).1 =
      if isSuccess status then collect limit chunks else none := by
  induction h with
  | here sent stays =>
    rw [Asset.fetchFrom, sent]
    simp only [stays]
  | redirected sent leads last ih =>
    rw [Asset.fetchFrom, sent]
    simp only [leads]
    exact ih

/-! ### Bodies in other pieces -/

/-- The replies are the same but for the pieces in which the body arrives. -/
inductive Recut : Reply → Reply → Prop
  | failed (message : String) : Recut (.failed message) (.failed message)
  | response (status : Nat) (headers : List (String × String)) {chunks chunks' : List (List UInt8)}
      (whole : chunks.flatten = chunks'.flatten) :
      Recut (.response status headers chunks) (.response status headers chunks')

theorem collect_recut {chunks chunks' : List (List UInt8)} (whole : chunks.flatten = chunks'.flatten)
    (limit : Nat) : collect limit chunks = collect limit chunks' := by
  rw [collect_eq, collect_eq, whole]

theorem fetchFrom_recut (recut : ∀ sent r, Recut (net.reply sent r) (reply sent r))
    (limit left : Nat) (url : String) (t : Trace) :
    fetchFrom { net with reply } limit left url t = fetchFrom net limit left url t := by
  induction left generalizing url t with
  | zero =>
    have same := recut t.sent { method := .get, url }
    unfold fetchFrom Network.send
    dsimp only
    generalize net.reply t.sent { method := .get, url } = given,
      reply t.sent { method := .get, url } = given' at same ⊢
    cases same with
    | failed => rfl
    | response status headers whole =>
      dsimp only
      rw [collect_recut whole]
      cases net.redirect? url status headers with
      | none | some => rfl
  | succ left ih =>
    have same := recut t.sent { method := .get, url }
    unfold fetchFrom Network.send
    dsimp only
    generalize net.reply t.sent { method := .get, url } = given,
      reply t.sent { method := .get, url } = given' at same ⊢
    cases same with
    | failed => rfl
    | response status headers whole =>
      dsimp only
      rw [collect_recut whole]
      cases net.redirect? url status headers with
      | none => rfl
      | some target => exact ih target _

theorem fetch_recut (recut : ∀ sent r, Recut (net.reply sent r) (reply sent r)) (limit : Nat)
    (url : String) (t : Trace) : fetch { net with reply } limit url t = fetch net limit url t :=
  fetchFrom_recut recut limit net.maxRedirects (net.normal url) t

/-! ### The whole body -/

theorem readLocal_eq {d : Disk} {path : String} {body : List UInt8}
    (file : d.readBytes path = .ok body) (limit : Nat) :
    readLocal d limit path = if body.length ≤ limit then some body else none := by
  rw [readLocal, file]
  dsimp only
  split
  · rw [if_neg (by omega)]
  · rw [if_pos (by omega)]

/-- A fetch that ends in a success gives the whole body if this is not too large, and else nothing,
as reading a file that holds the body does. The same is fetched, and the same requests are made for
it, where bodies arrive in other pieces. -/
theorem fetch_body (last : LastReply net status chunks net.maxRedirects (net.normal url) t)
    (success : isSuccess status = true) {body : List UInt8} (whole : chunks.flatten = body)
    (limit : Nat) :
    (fetch net limit url t).1 = (if body.length ≤ limit then some body else none) ∧
      (∀ (d : Disk) (path : String), d.readBytes path = .ok body →
        (fetch net limit url t).1 = readLocal d limit path) ∧
      ∀ reply, (∀ sent r, Recut (net.reply sent r) (reply sent r)) →
        fetch { net with reply } limit url t = fetch net limit url t := by
  have fetched : (fetch net limit url t).1 = if body.length ≤ limit then some body else none := by
    rw [fetch, last.fetchFrom, if_pos success, collect_eq, whole]
  exact ⟨fetched, fun d path file => fetched.trans (readLocal_eq file limit).symm,
    fun reply recut => fetch_recut recut limit url t⟩

/-- A network in which an address leads to another one, where three bytes arrive in some pieces. -/
def pictureHost (pieces : List (List UInt8)) : Network where
  reply _ r :=
    if r.url = "http://a.b/c.png" then .response 200 [] pieces
    else .response 302 [("Location", "/c.png")] []

/-- Three bytes behind a redirection, in pieces of which one is empty, with limits of three and of
two bytes. -/
theorem fetch_body_redirected :
    let net := pictureHost [[1, 2], [], [3]]
    let d : Disk := ({} : Disk).put "/c.png" (.file [1, 2, 3])
    LastReply net 200 [[1, 2], [], [3]] net.maxRedirects (net.normal "http://a.b/") {} ∧
      isSuccess 200 = true ∧ d.readBytes "/c.png" = .ok [1, 2, 3] ∧
      (fetch net 3 "http://a.b/" {}).1 = some [1, 2, 3] ∧ readLocal d 3 "/c.png" = some [1, 2, 3] ∧
      (fetch net 2 "http://a.b/" {}).1 = none ∧ readLocal d 2 "/c.png" = none ∧
      fetch (pictureHost [[1], [2, 3]]) 3 "http://a.b/" {} = fetch net 3 "http://a.b/" {} := by
  intro net d
  have normal : net.normal "http://a.b/" = "http://a.b/" := by decide +kernel
  have leads : net.redirect? "http://a.b/" 302 [("Location", "/c.png")] =
      some "http://a.b/c.png" := by
    decide +kernel
  have last : LastReply net 200 [[1, 2], [], [3]] net.maxRedirects (net.normal "http://a.b/")
      {} := by
    rw [normal]
    exact .redirected rfl leads (.here rfl rfl)
  have file : d.readBytes "/c.png" = .ok [1, 2, 3] := by
    have found : d.find? "/c.png" = some (.file [1, 2, 3]) := by decide +kernel
    rw [Disk.readBytes, found]
  obtain ⟨three, agrees, recut⟩ := fetch_body last rfl rfl 3
  obtain ⟨two, agrees', -⟩ := fetch_body last rfl rfl 2
  refine ⟨last, rfl, file, three, (agrees d _ file).symm.trans three, two,
    (agrees' d _ file).symm.trans two, recut _ fun sent r => ?_⟩
  simp only [net, pictureHost]
  split
  · exact .response 200 [] rfl
  · exact .response 302 _ rfl

end JsxAudit.Asset
