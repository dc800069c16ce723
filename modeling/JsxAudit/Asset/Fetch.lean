import JsxAudit.Http.Exchange

/-!
Fetching a file from the web, up to a size.

Redirections are followed, but not without end. What is too large is given up as soon as it shows,
which is no different from reading everything and looking at the size: `collect_eq`.
-/

namespace JsxAudit.Asset

open Http

/-- The pieces of a body put together, given up once they are more than `limit` bytes. -/
def collectFrom (limit : Nat) (collected : List UInt8) : List (List UInt8) → Option (List UInt8)
  | [] => some collected
  | chunk :: rest =>
    if limit < (collected ++ chunk).length then none
    else collectFrom limit (collected ++ chunk) rest

def collect (limit : Nat) (chunks : List (List UInt8)) : Option (List UInt8) :=
  collectFrom limit [] chunks

theorem collectFrom_eq {limit : Nat} {collected : List UInt8} (chunks : List (List UInt8))
    (h : collected.length ≤ limit) :
    collectFrom limit collected chunks =
      if (collected ++ chunks.flatten).length ≤ limit then some (collected ++ chunks.flatten)
      else none := by
  induction chunks generalizing collected with
  | nil => simp [collectFrom, h]
  | cons chunk rest ih =>
    rw [collectFrom]
    split
    · rename_i exceeds
      rw [if_neg]
      simp only [List.flatten_cons, List.length_append] at exceeds ⊢
      omega
    · rename_i fits
      rw [ih (by omega)]
      simp

/-- The whole body if it is not too large, however it arrives. -/
theorem collect_eq (limit : Nat) (chunks : List (List UInt8)) :
    collect limit chunks = if chunks.flatten.length ≤ limit then some chunks.flatten else none := by
  rw [collect, collectFrom_eq chunks (Nat.zero_le limit), List.nil_append]

/-! ### Redirections -/

/-- The file at an address, after at most `left` redirections. -/
def fetchFrom (net : Network) (limit : Nat) :
    (left : Nat) → (url : String) → Trace → Option (List UInt8) × Trace
  | left, url, t =>
    match net.send { method := .get, url } t with
    | (.failed _, t) => (none, t)
    | (.response status headers chunks, t) =>
      match net.redirect? url status headers, left with
      | some target, left + 1 => fetchFrom net limit left target t
      | some _, 0 => (none, t)
      | none, _ => (if isSuccess status then collect limit chunks else none, t)

/-- The file at an address, unless it is too large or cannot be had. -/
def fetch (net : Network) (limit : Nat) (url : String) (t : Trace) : Option (List UInt8) × Trace :=
  fetchFrom net limit net.maxRedirects (net.normal url) t

end JsxAudit.Asset
