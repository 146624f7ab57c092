import Mathlib.Data.List.TakeWhile
import PrintAgent.Lib.Json

/-!
# Python's URL reader

`urlsplit` of `urllib.parse`, as far as the scheme and the host: `urlparse` has both from it.

* `Unicode`        what the interpreter brings along: `str.lower`, NFKC, the check of what is in brackets;
* `urlsplit`       the scheme and the network location, or the `ValueError`;
* `SplitResult.hostname`   the host, in small letters.
-/

namespace PyUrl

open PyJson (Str CodePoint)

/-- what the interpreter brings along, with what is relied on of it -/
structure Unicode where
  /-- `str.lower` -/
  lower : Str → Str
  /-- `unicodedata.normalize('NFKC', ·)` -/
  nfkc : Str → Str
  /-- the network location has brackets, and what is in them is an address -/
  isBracketed : Str → Bool
  lower_ascii : ∀ s : List Char, (∀ c ∈ s, c.toNat < 0x80) →
    lower (s.map .scalar) = (s.map Char.toLower).map .scalar
  lower_eq_nil : ∀ s : Str, lower s = [] → s = []

/-- the `ValueError`s -/
inductive UrlError where
  | invalidIPv6
  | notAnAddress
  /-- the network location has a character that NFKC makes a delimiter of -/
  | invalidNetloc
  deriving DecidableEq, Repr

def isOneOf (chars : List Char) : CodePoint → Bool
  | .scalar c => c ∈ chars
  | .surrogate _ => false

def isAscii : CodePoint → Bool
  | .scalar c => c.toNat < 0x80
  | .surrogate _ => false

/-- `_WHATWG_C0_CONTROL_OR_SPACE` -/
def isControlOrSpace : CodePoint → Bool
  | .scalar c => c.toNat ≤ 0x20
  | .surrogate _ => false

/-- `_UNSAFE_URL_BYTES_TO_REMOVE` -/
def unsafeToRemove : List Char := ['\t', '\r', '\n']

def isLetter : CodePoint → Bool
  | .scalar c => c.isAlpha
  | .surrogate _ => false

/-- `scheme_chars` -/
def isSchemeChar : CodePoint → Bool
  | .scalar c => c.isAlphanum || c = '+' || c = '-' || c = '.'
  | .surrogate _ => false

/-- `s.partition(c)`, without the separator where there is none -/
def before (c : Char) (s : Str) : Str := s.takeWhile fun x => !isOneOf [c] x

def after (c : Char) (s : Str) : Str := (s.dropWhile fun x => !isOneOf [c] x).drop 1

/-- `s.rpartition(c)[2]` -/
def afterLast (c : Char) (s : Str) : Str := (s.reverse.takeWhile fun x => !isOneOf [c] x).reverse

/-- `c in s` -/
def has (c : Char) (s : Str) : Bool := s.any (isOneOf [c])

structure SplitResult where
  scheme : Str
  netloc : Str
  deriving DecidableEq, Repr

section
variable (u : Unicode)

def splitScheme (url : Str) : Str × Str :=
  if has ':' url && (before ':' url).head?.any isLetter && (before ':' url).all isSchemeChar then
    (u.lower (before ':' url), after ':' url)
  else ([], url)

/-- `_splitnetloc(url, 2)`, where `url` begins with `//` -/
def splitNetloc (url : Str) : Str :=
  if url.take 2 = Str.ofString "//" then (url.drop 2).takeWhile fun x => !isOneOf ['/', '?', '#'] x
  else []

def checkNetloc (netloc : Str) : Bool :=
  netloc.all isAscii ||
    let n := netloc.filter fun x => !isOneOf ['@', ':', '#', '?'] x
    n = u.nfkc n || !(u.nfkc n).any (isOneOf ['/', '?', '#', '@', ':'])

def urlsplit (url : Str) : Except UrlError SplitResult :=
  let url := (url.dropWhile isControlOrSpace).filter fun x => !isOneOf unsafeToRemove x
  let (scheme, url) := splitScheme u url
  let netloc := splitNetloc url
  if has '[' netloc != has ']' netloc then .error .invalidIPv6
  else if has '[' netloc && !u.isBracketed netloc then .error .notAnAddress
  else if checkNetloc u netloc then .ok ⟨scheme, netloc⟩
  else .error .invalidNetloc

/-- `_hostinfo[0]` -/
def SplitResult.hostinfo (r : SplitResult) : Str :=
  let hostinfo := afterLast '@' r.netloc
  if has '[' hostinfo then before ']' (after '[' hostinfo) else before ':' hostinfo

/-- `hostname`; the zone of an address keeps its letters -/
def SplitResult.hostname (r : SplitResult) : Option Str :=
  if r.hostinfo = [] then none
  else some (u.lower (before '%' r.hostinfo) ++ r.hostinfo.dropWhile fun x => !isOneOf ['%'] x)

/-- `urlparse(url).hostname` -/
def hostname (url : Str) : Except UrlError (Option Str) := do
  return (← urlsplit u url).hostname u

/-- `urlparse(url).scheme` -/
def scheme (url : Str) : Except UrlError Str := do
  return (← urlsplit u url).scheme

end

def Unicode.ascii : Unicode where
  lower s := s.map fun
    | .scalar c => .scalar c.toLower
    | x => x
  nfkc s := s
  isBracketed _ := true
  lower_ascii s _ := by simp
  lower_eq_nil s h := by simpa using h

theorem SplitResult.hostname_ne_nil {u : Unicode} {r : SplitResult} {host : Str}
    (h : r.hostname u = some host) : host ≠ [] := by
  rintro rfl
  rw [hostname] at h
  split at h
  · cases h
  · rename_i hne
    obtain ⟨hlower, hdrop⟩ := List.append_eq_nil_iff.mp (Option.some.inj h)
    have htake := u.lower_eq_nil _ hlower
    rw [before] at htake
    have hall := List.takeWhile_append_dropWhile (p := fun x => !isOneOf ['%'] x) (l := r.hostinfo)
    rw [htake, hdrop] at hall
    exact hne hall.symm

/-! ## a plain URL -/

def httpsScheme : List Char := ['h', 't', 't', 'p', 's']

/-- an `https` URL with this host -/
def httpsUrl (host : List Char) : List Char :=
  ['h', 't', 't', 'p', 's', ':', '/', '/'] ++ (host ++ ['/'])

/-- the characters that have a meaning in a URL before its path -/
def delimiters : List Char := ['/', '?', '#', '@', ':', '[', ']', '%']

/-- a printable ASCII character that is no capital and no delimiter -/
def isPlainChar (c : Char) : Bool :=
  decide (0x20 < c.toNat ∧ c.toNat < 0x80 ∧ c.toLower = c) && c ∉ delimiters

section
variable {host : List Char} (h : ∀ c ∈ host, isPlainChar c = true)
include h

theorem plain_ascii : ∀ c ∈ host, 0x20 < c.toNat ∧ c.toNat < 0x80 ∧ c.toLower = c := by
  intro c hc
  have hplain := h c hc
  rw [isPlainChar, Bool.and_eq_true, decide_eq_true_eq] at hplain
  exact hplain.1

theorem isOneOf_plain {chars : List Char} (hchars : chars ⊆ delimiters) :
    ∀ x ∈ host.map CodePoint.scalar, (!isOneOf chars x) = true := by
  intro x hx
  obtain ⟨c, hc, rfl⟩ := List.mem_map.mp hx
  have hplain := h c hc
  rw [isPlainChar, Bool.and_eq_true, decide_eq_true_eq, decide_eq_true_eq] at hplain
  have hno : c ∉ chars := fun hm => hplain.2 (hchars hm)
  simpa [isOneOf] using hno

theorem lower_plain (u : Unicode) : u.lower (host.map .scalar) = host.map .scalar := by
  rw [u.lower_ascii host fun c hc => (plain_ascii h c hc).2.1]
  have hmap : host.map Char.toLower = host.map id :=
    List.map_congr_left fun c hc => (plain_ascii h c hc).2.2
  rw [hmap, List.map_id]

theorem has_plain {c : Char} (hc : c ∈ delimiters) : has c (host.map .scalar) = false := by
  rw [has, List.any_eq_false]
  intro x hx
  have hno : (!isOneOf [c] x) = true := isOneOf_plain h (by simpa using hc) x hx
  simpa using hno

theorem urlsplit_httpsUrl (u : Unicode) :
    urlsplit u ((httpsUrl host).map .scalar) = .ok ⟨httpsScheme.map .scalar, host.map .scalar⟩ := by
  have hclean : ((((httpsUrl host).map CodePoint.scalar).dropWhile isControlOrSpace).filter
      fun x => !isOneOf unsafeToRemove x) = (httpsUrl host).map .scalar := by
    show (((httpsUrl host).map CodePoint.scalar).filter fun x => !isOneOf unsafeToRemove x) = _
    have hhost : ∀ c ∈ host, c ∉ unsafeToRemove := by
      intro c hc hm
      have hlow : ∀ d ∈ unsafeToRemove, d.toNat ≤ 0x20 := by simp [unsafeToRemove]
      exact absurd (plain_ascii h c hc).1 (Nat.not_lt.mpr (hlow c hm))
    have hrest : ∀ c ∈ ['h', 't', 't', 'p', 's', ':', '/', '/'] ++ ['/'], c ∉ unsafeToRemove := by
      simp [unsafeToRemove]
    rw [List.filter_eq_self]
    intro x hx
    obtain ⟨c, hc, rfl⟩ := List.mem_map.mp hx
    have hno : c ∉ unsafeToRemove := by
      simp only [httpsUrl, List.mem_append] at hc hrest
      rcases hc with hc | hc | hc
      · exact hrest c (.inl hc)
      · exact hhost c hc
      · exact hrest c (.inr hc)
    simpa [isOneOf] using hno
  have hscheme : splitScheme u ((httpsUrl host).map .scalar)
      = (u.lower (httpsScheme.map .scalar), (['/', '/'] ++ (host ++ ['/'])).map .scalar) := rfl
  have hnetloc : splitNetloc ((['/', '/'] ++ (host ++ ['/'])).map .scalar) = host.map .scalar := by
    show ((host ++ ['/']).map CodePoint.scalar).takeWhile (fun x => !isOneOf ['/', '?', '#'] x) = _
    rw [List.map_append, List.takeWhile_append_of_pos (isOneOf_plain h (by decide))]
    show host.map CodePoint.scalar ++ [] = _
    rw [List.append_nil]
  have hcheck : checkNetloc u (host.map .scalar) = true := by
    have hascii : (host.map CodePoint.scalar).all isAscii = true := by
      rw [List.all_eq_true]
      intro x hx
      obtain ⟨c, hc, rfl⟩ := List.mem_map.mp hx
      exact decide_eq_true (plain_ascii h c hc).2.1
    rw [checkNetloc, hascii, Bool.true_or]
  have hhttps : u.lower (httpsScheme.map .scalar) = httpsScheme.map .scalar :=
    u.lower_ascii httpsScheme (by simp [httpsScheme])
  simp only [urlsplit, hclean, hscheme, hnetloc, hcheck, hhttps]
  rw [has_plain h (by decide), has_plain h (by decide)]
  rfl

theorem hostname_httpsUrl (u : Unicode) (hne : host ≠ []) :
    hostname u ((httpsUrl host).map .scalar) = .ok (some (host.map .scalar)) := by
  have hlast : afterLast '@' (host.map .scalar) = host.map .scalar := by
    rw [afterLast, List.takeWhile_eq_self_iff.mpr, List.reverse_reverse]
    intro x hx
    exact isOneOf_plain h (by decide) x (List.mem_reverse.mp hx)
  have hinfo : (⟨httpsScheme.map .scalar, host.map .scalar⟩ : SplitResult).hostinfo
      = host.map .scalar := by
    rw [SplitResult.hostinfo]
    simp only [hlast]
    rw [has_plain h (by decide), if_neg Bool.false_ne_true, before,
      List.takeWhile_eq_self_iff.mpr (isOneOf_plain h (by decide))]
  have hne' : host.map CodePoint.scalar ≠ [] := by simpa using hne
  have hplain : ∀ x ∈ host.map CodePoint.scalar, (!isOneOf ['%'] x) = true :=
    isOneOf_plain h (by decide)
  rw [hostname, urlsplit_httpsUrl h]
  show Except.ok (SplitResult.hostname u _) = _
  rw [SplitResult.hostname, hinfo, if_neg hne', before, List.takeWhile_eq_self_iff.mpr hplain,
    List.dropWhile_eq_nil_iff.mpr (fun x hx => by simpa using hplain x hx), lower_plain h,
    List.append_nil]

end

end PyUrl
