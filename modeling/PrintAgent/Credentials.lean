import Mathlib.Logic.Function.Basic
import PrintAgent.Lib.Machine
import PrintAgent.Lib.Text
import PrintAgent.Net.Downloader

/-!
# The store of the agent's secret

`credentials.py`.  A secret is in one of three places: the file `credential.dpapi` and the file
`credential.fallback` hold one record each, the keyring one entry for each id.

* `CredentialStore`              what the places hold;
* `saveAgentSecret`              writes to the first place that can be written, and leaves the others;
* `loadAgentSecret`              asks the places in an order of its own;
* `CredentialStore.secretAt`     what a place answers, and how a call changes it (`secretAt_save`, `secretAt_delete`);
* `LeavesNoStale`                the condition on a save: no other place answers with another secret;
* `returns_last_saved`           in a history of such saves the last secret is returned, and after any
                                 other save there are calls such that an old one is.
-/

namespace PrintAgent

open PyJson (Str CodePoint isEncodable)
open PyStr

inductive Platform where
  | win32 | darwin | other
  deriving DecidableEq, Repr

structure Backends where
  dpapi : Bool
  keyring : Bool
  deriving DecidableEq, Repr

def Backends.working : Backends where
  dpapi := true
  keyring := true

/-- what `credential.dpapi` holds -/
inductive Blob where
  | encrypted (data : Str)
  /-- no blob of `CryptProtectData` -/
  | damaged
  deriving DecidableEq, Repr

/-- the characters of a file, unless they are no UTF-8 -/
inductive FileText where
  | text (s : Str)
  | undecodable
  deriving DecidableEq, Repr

structure CredentialStore where
  windowsSecret : Option Blob := none
  fallback : Option FileText := none
  keyring : Str → Option Str := fun _ => none

inductive CredentialExc where
  | unicodeEncodeError | unicodeDecodeError
  deriving DecidableEq, Repr

/-- `f"{agent_id}\n{secret}"` -/
def record (agentId secret : Str) : Str := agentId ++ .scalar '\n' :: secret

/-- the blob that `_save_windows_secret` writes, if it does -/
def saveWindowsSecret (p : Platform) (b : Backends) (agentId secret : Str) : Option Blob :=
  if p = .win32 ∧ b.dpapi ∧ isEncodable (record agentId secret) then some (.encrypted (record agentId secret)) else none

/-- `_load_windows_secret`, from the data of the blob -/
def windowsSecretOf (agentId data : Str) : Option Str :=
  if PyUrl.before '\n' data ≠ agentId ∨ PyUrl.after '\n' data = [] then none else some (strip (PyUrl.after '\n' data))

def loadWindowsSecret (p : Platform) (b : Backends) (store : CredentialStore) (agentId : Str) : Option Str :=
  if p = .win32 ∧ b.dpapi then
    match store.windowsSecret with
    | some (.encrypted data) => windowsSecretOf agentId data
    | _ => none
  else none

def fallbackText (p : Platform) (agentId secret : Str) : Str :=
  expandNewlines (p = .win32) (record agentId secret ++ [.scalar '\n'])

/-- `save_agent_secret`: how it ends, and the store that it leaves -/
def saveAgentSecret (p : Platform) (b : Backends) (agentId secret : Str) (store : CredentialStore) :
    Except CredentialExc Unit × CredentialStore :=
  match saveWindowsSecret p b agentId secret with
  | some blob => (.ok (), { store with windowsSecret := some blob })
  | none =>
    if p ≠ .darwin ∧ b.keyring then
      (.ok (), { store with keyring := Function.update store.keyring agentId (some secret) })
    else if isEncodable (record agentId secret) then
      (.ok (), { store with fallback := some (.text (fallbackText p agentId secret)) })
    else
      -- the file is open, and empty, when its text cannot be encoded
      (.error .unicodeEncodeError, { store with fallback := some (.text []) })

def fallbackSecretOf (agentId text : Str) : Option Str :=
  match splitlines (universalNewlines text) with
  | line :: secret :: _ => if line = agentId then some secret else none
  | _ => none

def loadFallback (store : CredentialStore) (agentId : Str) : Except CredentialExc (Option Str) :=
  match store.fallback with
  | none => .ok none
  | some (.text text) => .ok (fallbackSecretOf agentId text)
  | some .undecodable => .error .unicodeDecodeError

def loadKeyring (b : Backends) (store : CredentialStore) (agentId : Str) : Option Str :=
  if b.keyring then store.keyring agentId else none

/-- `if secret:` -/
def truthy (secret : Option Str) : Option Str := secret.filter (· ≠ [])

def loadAgentSecret (p : Platform) (b : Backends) (store : CredentialStore) (agentId : Str) :
    Except CredentialExc (Option Str) := do
  match truthy (loadWindowsSecret p b store agentId) with
  | some secret => return some secret
  | none =>
    match ← loadFallback store agentId with
    | some secret => return some secret
    | none =>
      match truthy (loadKeyring b store agentId) with
      | some secret => return some secret
      | none => loadFallback store agentId

def deleteAgentSecret (b : Backends) (agentId : Str) (store : CredentialStore) : CredentialStore where
  windowsSecret := none
  fallback := none
  keyring := if b.keyring then Function.update store.keyring agentId none else store.keyring

/-! ## what the places answer -/

inductive SecretPlace where
  | windows | fallback | keyring
  deriving DecidableEq, Repr

/-- the answer of a place, as `load_agent_secret` sees it -/
def CredentialStore.secretAt (p : Platform) (b : Backends) (store : CredentialStore) (agentId : Str) :
    SecretPlace → Except CredentialExc (Option Str)
  | .windows => .ok (truthy (loadWindowsSecret p b store agentId))
  | .fallback => loadFallback store agentId
  | .keyring => .ok (truthy (loadKeyring b store agentId))

/-- the first answer, in the order of `load_agent_secret` -/
def firstSecret (answer : SecretPlace → Except CredentialExc (Option Str)) : Except CredentialExc (Option Str) := do
  match ← answer .windows with
  | some secret => return some secret
  | none =>
    match ← answer .fallback with
    | some secret => return some secret
    | none => answer .keyring

section First
variable {answer : SecretPlace → Except CredentialExc (Option Str)} {secret : Str}

theorem firstSecret_windows (h : answer .windows = .ok (some secret)) : firstSecret answer = .ok (some secret) := by
  rw [firstSecret, h]
  rfl

theorem firstSecret_fallback (hwindows : answer .windows = .ok none) (h : answer .fallback = .ok (some secret)) :
    firstSecret answer = .ok (some secret) := by
  rw [firstSecret, hwindows, h]
  rfl

theorem firstSecret_keyring (hwindows : answer .windows = .ok none) (hfallback : answer .fallback = .ok none) :
    firstSecret answer = answer .keyring := by
  rw [firstSecret, hwindows, hfallback]
  rfl

theorem exists_of_firstSecret (h : firstSecret answer = .ok (some secret)) :
    ∃ place, answer place = .ok (some secret) := by
  cases hwindows : answer .windows with
  | error e =>
    rw [firstSecret, hwindows] at h
    cases h
  | ok found =>
    cases found with
    | some t => exact ⟨.windows, by rw [hwindows, ← h, firstSecret_windows hwindows]⟩
    | none =>
      cases hfallback : answer .fallback with
      | error e =>
        rw [firstSecret, hwindows, hfallback] at h
        cases h
      | ok found =>
        cases found with
        | some t => exact ⟨.fallback, by rw [hfallback, ← h, firstSecret_fallback hwindows hfallback]⟩
        | none => exact ⟨.keyring, by rw [← h, firstSecret_keyring hwindows hfallback]⟩

theorem exists_firstSecret (h : ∀ place, ∃ found, answer place = .ok found) {place : SecretPlace}
    (hplace : answer place = .ok (some secret)) : ∃ t, firstSecret answer = .ok (some t) := by
  obtain ⟨found, hwindows⟩ := h .windows
  cases found with
  | some t => exact ⟨t, firstSecret_windows hwindows⟩
  | none =>
    obtain ⟨found, hfallback⟩ := h .fallback
    cases found with
    | some t => exact ⟨t, firstSecret_fallback hwindows hfallback⟩
    | none =>
      cases place with
      | windows => cases hwindows.symm.trans hplace
      | fallback => cases hfallback.symm.trans hplace
      | keyring => exact ⟨secret, by rw [firstSecret_keyring hwindows hfallback, hplace]⟩

end First

/-- that the fallback file is asked again at the end makes no difference -/
theorem loadAgentSecret_eq (p : Platform) (b : Backends) (store : CredentialStore) (agentId : Str) :
    loadAgentSecret p b store agentId = firstSecret (store.secretAt p b agentId) := by
  show (match truthy (loadWindowsSecret p b store agentId) with
    | some secret => pure (some secret)
    | none => do
      match ← loadFallback store agentId with
      | some secret => pure (some secret)
      | none =>
        match truthy (loadKeyring b store agentId) with
        | some secret => pure (some secret)
        | none => loadFallback store agentId) = (match truthy (loadWindowsSecret p b store agentId) with
    | some secret => pure (some secret)
    | none => do
      match ← loadFallback store agentId with
      | some secret => pure (some secret)
      | none => .ok (truthy (loadKeyring b store agentId)))
  cases truthy (loadWindowsSecret p b store agentId) with
  | some secret => rfl
  | none =>
    cases h : loadFallback store agentId with
    | error e => rfl
    | ok answer =>
      cases answer with
      | some secret => rfl
      | none => cases truthy (loadKeyring b store agentId) <;> rfl

def saveTarget (p : Platform) (b : Backends) (agentId secret : Str) : SecretPlace :=
  if p = .win32 ∧ b.dpapi ∧ isEncodable (record agentId secret) then .windows
  else if p ≠ .darwin ∧ b.keyring then .keyring
  else .fallback

section Answers
variable {p : Platform} {b reading : Backends} {store : CredentialStore} {agentId secret id : Str} {place : SecretPlace}

theorem saveAgentSecret_eq (p : Platform) (b : Backends) (agentId secret : Str) (store : CredentialStore) :
    saveAgentSecret p b agentId secret store =
      match saveTarget p b agentId secret with
      | .windows => (.ok (), { store with windowsSecret := some (.encrypted (record agentId secret)) })
      | .keyring => (.ok (), { store with keyring := Function.update store.keyring agentId (some secret) })
      | .fallback =>
        if isEncodable (record agentId secret) then
          (.ok (), { store with fallback := some (.text (fallbackText p agentId secret)) })
        else (.error .unicodeEncodeError, { store with fallback := some (.text []) }) := by
  unfold saveAgentSecret saveWindowsSecret saveTarget
  by_cases hwindows : p = .win32 ∧ b.dpapi ∧ isEncodable (record agentId secret)
  · rw [if_pos hwindows, if_pos hwindows]
  · rw [if_neg hwindows, if_neg hwindows]
    by_cases hkeyring : p ≠ .darwin ∧ b.keyring
    · rw [if_pos hkeyring, if_pos hkeyring]
    · rw [if_neg hkeyring, if_neg hkeyring]

theorem secretAt_save_of_ne (h : place ≠ saveTarget p b agentId secret) :
    (saveAgentSecret p b agentId secret store).2.secretAt p reading id place = store.secretAt p reading id place := by
  rw [saveAgentSecret_eq]
  cases htarget : saveTarget p b agentId secret with
  | windows =>
    cases place with
    | windows => exact absurd htarget.symm h
    | fallback => rfl
    | keyring => rfl
  | keyring =>
    cases place with
    | windows => rfl
    | fallback => rfl
    | keyring => exact absurd htarget.symm h
  | fallback =>
    dsimp only
    cases place with
    | windows => split <;> rfl
    | fallback => exact absurd htarget.symm h
    | keyring => split <;> rfl

/-- a delete removes the two files, -/
theorem secretAt_delete_of_ne (h : place ≠ .keyring) :
    (deleteAgentSecret b agentId store).secretAt p reading id place = .ok none := by
  cases place with
  | windows =>
    show Except.ok (truthy (if p = .win32 ∧ reading.dpapi then none else none)) = _
    rw [ite_self]
    rfl
  | fallback => rfl
  | keyring => exact absurd rfl h

/-- and the entry of the keyring, if the keyring works -/
theorem secretAt_delete_keyring : (deleteAgentSecret b agentId store).secretAt p reading id .keyring =
    if b.keyring ∧ id = agentId then .ok none else store.secretAt p reading id .keyring := by
  show Except.ok (truthy (if reading.keyring then
    (if b.keyring then Function.update store.keyring agentId none else store.keyring) id else none)) = _
  by_cases h : b.keyring = true ∧ id = agentId
  · rw [if_pos h, if_pos h.1, h.2, Function.update_self, ite_self]
    rfl
  · rw [if_neg h]
    by_cases hkeyring : b.keyring = true
    · have hid : id ≠ agentId := fun he => h ⟨hkeyring, he⟩
      rw [if_pos hkeyring, Function.update_of_ne hid]
      rfl
    · rw [if_neg hkeyring]
      rfl

end Answers

/-! ## ids and secrets that are one word -/

structure Token where
  text : Str
  ne_nil : text ≠ []
  chars : ∀ c ∈ text, isTokenChar c = true

theorem not_isLineBreak_of_token {c : CodePoint} (h : isTokenChar c = true) : isLineBreak c = false := by
  obtain ⟨d, rfl, hd⟩ := exists_of_isTokenChar h
  simp only [isLineBreak, List.mem_cons, List.not_mem_nil, or_false, decide_eq_false_iff_not]
  omega

theorem not_isSpace_of_token {c : CodePoint} (h : isTokenChar c = true) : isSpace c = false := by
  obtain ⟨d, rfl, hd⟩ := exists_of_isTokenChar h
  simp only [isSpace, List.mem_cons, List.not_mem_nil, or_false, decide_eq_false_iff_not]
  omega

namespace Token
variable (agentId secret : Token) {id : Str}

theorem newline_notMem : .scalar '\n' ∉ secret.text := by
  intro h
  have hbreak := not_isLineBreak_of_token (secret.chars _ h)
  exact Bool.noConfusion hbreak

theorem return_notMem : .scalar '\r' ∉ secret.text := by
  intro h
  have hbreak := not_isLineBreak_of_token (secret.chars _ h)
  exact Bool.noConfusion hbreak

theorem strip_text : strip secret.text = secret.text := by
  have hdrop : ∀ s : Str, (∀ c ∈ s, isTokenChar c = true) → s.dropWhile isSpace = s := by
    intro s hs
    cases s with
    | nil => rfl
    | cons c s =>
      refine List.dropWhile_cons_of_neg ?_
      rw [not_isSpace_of_token (hs c List.mem_cons_self)]
      exact Bool.false_ne_true
  rw [strip, hdrop _ secret.chars, hdrop _ fun c hc => secret.chars c (List.mem_reverse.mp hc), List.reverse_reverse]

theorem isEncodable_record : isEncodable (record agentId.text secret.text) = true := by
  refine List.all_eq_true.mpr fun c hc => ?_
  rcases List.mem_append.mp hc with h | h
  · obtain ⟨d, rfl, -⟩ := exists_of_isTokenChar (agentId.chars c h)
    rfl
  · rcases List.mem_cons.mp h with rfl | h
    · rfl
    · obtain ⟨d, rfl, -⟩ := exists_of_isTokenChar (secret.chars c h)
      rfl

theorem windowsSecretOf_record : windowsSecretOf id (record agentId.text secret.text) =
    if id = agentId.text then some secret.text else none := by
  have hword : ∀ c ∈ agentId.text, (!PyUrl.isOneOf ['\n'] c) = true := by
    intro c hc
    have hne : c ≠ .scalar '\n' := fun h => agentId.newline_notMem (h ▸ hc)
    cases c with
    | surrogate n => rfl
    | scalar d =>
      have hd : d ≠ '\n' := fun h => hne (h ▸ rfl)
      simp [PyUrl.isOneOf, hd]
  have hbefore : PyUrl.before '\n' (record agentId.text secret.text) = agentId.text := by
    rw [PyUrl.before, record, List.takeWhile_append_of_pos hword]
    exact List.append_nil _
  have hafter : PyUrl.after '\n' (record agentId.text secret.text) = secret.text := by
    rw [PyUrl.after, record, List.dropWhile_append_of_pos hword]
    rfl
  rw [windowsSecretOf, hbefore, hafter, strip_text]
  by_cases hid : id = agentId.text
  · rw [if_pos hid, if_neg (by rintro (h | h) <;> first | exact h hid.symm | exact secret.ne_nil h)]
  · rw [if_neg hid, if_pos (.inl (Ne.symm hid))]

theorem fallbackSecretOf_fallbackText (p : Platform) : fallbackSecretOf id (fallbackText p agentId.text secret.text) =
    if id = agentId.text then some secret.text else none := by
  have hreturn : CodePoint.scalar '\r' ∉ record agentId.text secret.text ++ [.scalar '\n'] := by
    intro h
    rcases List.mem_append.mp h with h | h
    · rcases List.mem_append.mp h with h | h
      · exact agentId.return_notMem h
      · rcases List.mem_cons.mp h with h | h
        · cases h
        · exact secret.return_notMem h
    · cases List.mem_singleton.mp h
  have hlines : splitlines (universalNewlines (fallbackText p agentId.text secret.text)) =
      [agentId.text, secret.text] := by
    rw [fallbackText, universalNewlines_expandNewlines _ hreturn, record, List.append_assoc, List.cons_append,
      splitlines_line fun c hc => not_isLineBreak_of_token (agentId.chars c hc),
      splitlines_line fun c hc => not_isLineBreak_of_token (secret.chars c hc)]
    rfl
  rw [fallbackSecretOf, hlines]
  by_cases hid : id = agentId.text
  · rw [if_pos hid]
    exact if_pos hid.symm
  · rw [if_neg hid]
    exact if_neg (Ne.symm hid)

end Token

section Saved
variable {p : Platform} {b : Backends} {store : CredentialStore} {agentId secret : Token} {id : Str}

/-- the place that was written answers with the secret, -/
theorem secretAt_save_self : (saveAgentSecret p b agentId.text secret.text store).2.secretAt p .working agentId.text
    (saveTarget p b agentId.text secret.text) = .ok (some secret.text) := by
  have htruthy : truthy (some secret.text) = some secret.text := if_pos (decide_eq_true secret.ne_nil)
  rw [saveAgentSecret_eq]
  cases htarget : saveTarget p b agentId.text secret.text with
  | windows =>
    have hp : p = .win32 := by
      by_contra hp
      rw [saveTarget, if_neg fun h => hp h.1] at htarget
      split at htarget <;> cases htarget
    show Except.ok (truthy (if p = .win32 ∧ true = true then windowsSecretOf agentId.text
      (record agentId.text secret.text)
      else none)) = _
    rw [if_pos ⟨hp, rfl⟩, Token.windowsSecretOf_record, if_pos rfl, htruthy]
  | fallback =>
    dsimp only
    rw [if_pos (Token.isEncodable_record agentId secret)]
    show Except.ok (fallbackSecretOf agentId.text (fallbackText p agentId.text secret.text)) = _
    rw [Token.fallbackSecretOf_fallbackText, if_pos rfl]
  | keyring =>
    show Except.ok (truthy (Function.update store.keyring agentId.text (some secret.text) agentId.text)) = _
    rw [Function.update_self, htruthy]

/-- and for another id with nothing, or as before -/
theorem secretAt_save_other (hid : id ≠ agentId.text) (place : SecretPlace) :
    (saveAgentSecret p b agentId.text secret.text store).2.secretAt p .working id place = .ok none ∨
      (saveAgentSecret p b agentId.text secret.text store).2.secretAt p .working id place =
        store.secretAt p .working id place := by
  by_cases hplace : place = saveTarget p b agentId.text secret.text
  · subst hplace
    rw [saveAgentSecret_eq]
    cases saveTarget p b agentId.text secret.text with
    | windows =>
      refine .inl ?_
      show Except.ok (truthy (if p = .win32 ∧ true = true then windowsSecretOf id (record agentId.text secret.text)
        else none)) = _
      rw [Token.windowsSecretOf_record, if_neg hid, ite_self]
      rfl
    | fallback =>
      refine .inl ?_
      dsimp only
      rw [if_pos (Token.isEncodable_record agentId secret)]
      show Except.ok (fallbackSecretOf id (fallbackText p agentId.text secret.text)) = _
      rw [Token.fallbackSecretOf_fallbackText, if_neg hid]
    | keyring =>
      refine .inr ?_
      show Except.ok (truthy (Function.update store.keyring agentId.text (some secret.text) id)) = _
      rw [Function.update_of_ne hid]
      rfl
  · exact .inr (secretAt_save_of_ne hplace)

end Saved

/-! ## histories of calls -/

inductive CredentialCall where
  | save (agentId secret : Token) (b : Backends)
  | delete (agentId : Token) (b : Backends)

def CredentialCall.leaves (p : Platform) (store : CredentialStore) : CredentialCall → CredentialStore
  | .save agentId secret b => (saveAgentSecret p b agentId.text secret.text store).2
  | .delete agentId b => deleteAgentSecret b agentId.text store

def credentials (p : Platform) : Machine CredentialStore CredentialCall where
  init := {}
  step store call := some (call.leaves p store)

def lastSaved (calls : List CredentialCall) (id : Str) : Option Str :=
  calls.foldl (fun last call =>
    match call with
    | .save agentId secret _ => if id = agentId.text then some secret.text else last
    | .delete _ _ => last) none

/-- the secret that is saved last is returned, and no secret that a later save replaced -/
structure ReturnsLast (p : Platform) (calls : List CredentialCall) (store : CredentialStore) : Prop where
  saved : ∀ front agentId secret b, calls = front ++ [.save agentId secret b] →
    loadAgentSecret p .working store agentId.text = .ok (some secret.text)
  last : ∀ id secret, loadAgentSecret p .working store id = .ok (some secret) → lastSaved calls id = some secret

/-- the condition on a call: no other place than the one that is written has another secret for the id -/
def LeavesNoStale (p : Platform) (store : CredentialStore) : CredentialCall → Prop
  | .save agentId secret b => ∀ place, place ≠ saveTarget p b agentId.text secret.text →
      ∀ t, store.secretAt p .working agentId.text place = .ok (some t) → t = secret.text
  | .delete _ _ => True

/-- every place answers, with the last secret if with any -/
def Fresh (p : Platform) (calls : List CredentialCall) (store : CredentialStore) : Prop :=
  ∀ id place, ∃ found, store.secretAt p .working id place = .ok found ∧
    ∀ secret, found = some secret → lastSaved calls id = some secret

section Histories
variable {p : Platform} {calls : List CredentialCall} {store : CredentialStore} {agentId secret : Token} {b : Backends}

theorem lastSaved_save (id : Str) : lastSaved (calls ++ [.save agentId secret b]) id =
    if id = agentId.text then some secret.text else lastSaved calls id := by
  rw [lastSaved, List.foldl_append]
  rfl

theorem lastSaved_delete (id : Str) : lastSaved (calls ++ [.delete agentId b]) id = lastSaved calls id := by
  rw [lastSaved, List.foldl_append]
  rfl

theorem fresh_nil (p : Platform) : Fresh p [] (credentials p).init := by
  intro id place
  refine ⟨none, ?_, fun secret h => by cases h⟩
  cases place with
  | windows =>
    show Except.ok (truthy (if p = .win32 ∧ true = true then none else none)) = _
    rw [ite_self]
    rfl
  | fallback => rfl
  | keyring => rfl

theorem Fresh.step {call : CredentialCall} (h : Fresh p calls store) (hcall : LeavesNoStale p store call) :
    Fresh p (calls ++ [call]) (call.leaves p store) := by
  intro id place
  obtain ⟨found, hfound, hlast⟩ := h id place
  cases call with
  | save agentId secret b =>
    show ∃ found, (saveAgentSecret p b agentId.text secret.text store).2.secretAt p .working id place = .ok found ∧ _
    rw [lastSaved_save]
    by_cases hid : id = agentId.text
    · subst hid
      rw [if_pos rfl]
      by_cases hplace : place = saveTarget p b agentId.text secret.text
      · subst hplace
        exact ⟨some secret.text, secretAt_save_self, fun t ht => ht⟩
      · -- what another place answers is not older, by the condition
        refine ⟨found, by rw [secretAt_save_of_ne hplace, hfound], fun t ht => ?_⟩
        subst ht
        rw [hcall place hplace t hfound]
    · rw [if_neg hid]
      have hother : (saveAgentSecret p b agentId.text secret.text store).2.secretAt p .working id place = .ok none ∨
        _ :=
        secretAt_save_other hid place
      rcases hother with hnone | hsame
      · exact ⟨none, hnone, fun t ht => by cases ht⟩
      · exact ⟨found, by rw [hsame, hfound], hlast⟩
  | delete agentId b =>
    show ∃ found, (deleteAgentSecret b agentId.text store).secretAt p .working id place = .ok found ∧ _
    rw [lastSaved_delete]
    by_cases hplace : place = .keyring
    · subst hplace
      rw [secretAt_delete_keyring]
      split
      · exact ⟨none, rfl, fun t ht => by cases ht⟩
      · exact ⟨found, hfound, hlast⟩
    · exact ⟨none, secretAt_delete_of_ne hplace, fun t ht => by cases ht⟩

theorem fresh_of_path (h : (credentials p).Path (LeavesNoStale p) (credentials p).init calls store) :
    Fresh p calls store := by
  refine h.invariant_schedule (I := Fresh p) ?_ (fresh_nil p)
  intro calls store call store' hfresh hcall hstep
  cases hstep
  exact hfresh.step hcall

theorem Fresh.returnsLast (h : Fresh p calls store)
    (hrun : (credentials p).run (credentials p).init calls = some store) :
    ReturnsLast p calls store where
  saved front agentId secret b hcalls := by
    subst hcalls
    obtain ⟨before, -, hsave⟩ := Machine.run_concat.mp hrun
    cases hsave
    obtain ⟨t, ht⟩ := exists_firstSecret (fun place => (h agentId.text place).imp fun found hfound => hfound.1)
      secretAt_save_self
    obtain ⟨place, hplace⟩ := exists_of_firstSecret ht
    obtain ⟨found, hfound, hlast⟩ := h agentId.text place
    have hsome : some t = some secret.text := by
      rw [← hlast t (Except.ok.inj (hfound.symm.trans hplace)), lastSaved_save, if_pos rfl]
    rw [loadAgentSecret_eq, ← hsome]
    exact ht
  last id t hload := by
    rw [loadAgentSecret_eq] at hload
    obtain ⟨place, hplace⟩ := exists_of_firstSecret hload
    obtain ⟨found, hfound, hlast⟩ := h id place
    exact hlast t (Except.ok.inj (hfound.symm.trans hplace))

theorem not_returnsLast (id : Str) {s t : Str} (hload : firstSecret (store.secretAt p .working id) = .ok (some t))
    (hlast : lastSaved calls id = some s) (hne : t ≠ s) : ¬ ReturnsLast p calls store := by
  intro h
  rw [← loadAgentSecret_eq] at hload
  have heq : some s = some t := by rw [← hlast, h.last id t hload]
  exact hne (Option.some.inj heq).symm

def Token.longer (id : Token) : Token where
  text := id.text ++ [.scalar 'a']
  ne_nil := List.append_ne_nil_of_right_ne_nil _ (List.cons_ne_nil _ _)
  chars c hc := by
    rcases List.mem_append.mp hc with h | h
    · exact id.chars c h
    · rw [List.mem_singleton.mp h]
      rfl

theorem Token.text_ne_longer (id : Token) : id.text ≠ id.longer.text := by
  intro h
  have hlength : id.text.length = id.text.length + 1 := by
    conv_lhs => rw [h]
    rw [Token.longer, List.length_append, List.length_singleton]
  omega

/-- another save on Windows hides what the blob had -/
theorem secretAt_windows_of_save {id : Str} (hid : id ≠ agentId.text) :
    (saveAgentSecret .win32 .working agentId.text secret.text store).2.secretAt .win32 .working id .windows =
      .ok none := by
  have htarget : saveTarget .win32 .working agentId.text secret.text = .windows :=
    if_pos ⟨rfl, rfl, Token.isEncodable_record agentId secret⟩
  rw [saveAgentSecret_eq, htarget]
  show Except.ok (truthy (windowsSecretOf id (record agentId.text secret.text))) = _
  rw [Token.windowsSecretOf_record, if_neg hid]
  rfl

/-- **Where another place has another secret for the id, there are calls such that it is returned.** -/
theorem exists_stale (calls : List CredentialCall) {call : CredentialCall} (h : ¬ LeavesNoStale p store call) :
    ∃ rest store', (credentials p).run (call.leaves p store) rest = some store' ∧
      ¬ ReturnsLast p (calls ++ call :: rest) store' := by
  cases call with
  | delete agentId b => exact absurd trivial h
  | save agentId secret b =>
    obtain ⟨place, hne, t, hfound, hstale⟩ : ∃ place, place ≠ saveTarget p b agentId.text secret.text ∧
        ∃ t, store.secretAt p .working agentId.text place = .ok (some t) ∧ t ≠ secret.text := by
      by_contra hnone
      refine h fun place hplace t ht => ?_
      by_contra hstale
      exact hnone ⟨place, hplace, t, ht, hstale⟩
    have hkept : (saveAgentSecret p b agentId.text secret.text store).2.secretAt p .working agentId.text place
        = .ok (some t) := by
      rw [secretAt_save_of_ne hne, hfound]
    have hlast : lastSaved (calls ++ [.save agentId secret b]) agentId.text = some secret.text := by
      rw [lastSaved_save, if_pos rfl]
    cases place with
    | windows => exact ⟨[], _, rfl, not_returnsLast agentId.text (firstSecret_windows hkept) hlast hstale⟩
    | fallback =>
      by_cases hp : p = .win32
      · -- the blob comes first, until it has another id
        subst hp
        refine ⟨[.save agentId.longer secret .working], _, rfl, ?_⟩
        rw [List.append_cons]
        have htarget : SecretPlace.fallback ≠ saveTarget .win32 .working agentId.longer.text secret.text := by
          rw [saveTarget, if_pos ⟨rfl, rfl, Token.isEncodable_record _ secret⟩]
          exact SecretPlace.noConfusion
        refine not_returnsLast agentId.text (firstSecret_fallback (secretAt_windows_of_save agentId.text_ne_longer)
          ((secretAt_save_of_ne htarget).trans hkept)) ?_ hstale
        rw [lastSaved_save, if_neg agentId.text_ne_longer, hlast]
      · have hwindows : (saveAgentSecret p b agentId.text secret.text store).2.secretAt p .working agentId.text .windows
            = .ok none := by
          show Except.ok (truthy (if p = .win32 ∧ true = true then _ else none)) = _
          rw [if_neg fun h => hp h.1]
          rfl
        exact ⟨[], _, rfl, not_returnsLast agentId.text (firstSecret_fallback hwindows hkept) hlast hstale⟩
    | keyring =>
      -- the files go, and the entry stays
      refine ⟨[.delete agentId { dpapi := true, keyring := false }], _, rfl, ?_⟩
      rw [List.append_cons]
      refine not_returnsLast agentId.text ((firstSecret_keyring (secretAt_delete_of_ne SecretPlace.noConfusion)
        (secretAt_delete_of_ne SecretPlace.noConfusion)).trans ?_) ?_ hstale
      · rw [secretAt_delete_keyring, if_neg (by rintro ⟨h, -⟩; cases h)]
        exact hkept
      · rw [lastSaved_delete, hlast]

end Histories

/-- **In a history whose saves leave nothing stale, the last secret is returned.  After any other save
there are calls such that an old one is.** -/
theorem returns_last_saved (p : Platform) :
    (∀ calls store, (credentials p).Path (LeavesNoStale p) (credentials p).init calls store →
      ReturnsLast p calls store) ∧
      ∀ calls store call, (credentials p).run (credentials p).init calls = some store → ¬ LeavesNoStale p store call →
        ∃ rest store', (credentials p).run (credentials p).init (calls ++ call :: rest) = some store' ∧
          ¬ ReturnsLast p (calls ++ call :: rest) store' := by
  constructor
  · intro calls store h
    exact (fresh_of_path h).returnsLast h.run
  · intro calls store call hrun h
    obtain ⟨rest, store', hrest, hstale⟩ := exists_stale calls h
    refine ⟨rest, store', ?_, hstale⟩
    rw [Machine.run_append, hrun]
    exact hrest

/-- the id of an agent, its first secret and the one after it -/
def tillId : Token where
  text := Str.ofString "agent-1"
  ne_nil := by decide
  chars := by decide

def oldSecret : Token where
  text := Str.ofString "eres_agent_live_1"
  ne_nil := by decide
  chars := by decide

def newSecret : Token where
  text := Str.ofString "eres_agent_live_2"
  ne_nil := by decide
  chars := by decide

/-- two secrets on a Mac -/
theorem returns_last_saved_mac :
    (∃ store, (credentials .darwin).Path (LeavesNoStale .darwin) (credentials .darwin).init
        [.save tillId oldSecret .working, .save tillId newSecret .working] store ∧
      ReturnsLast .darwin [.save tillId oldSecret .working, .save tillId newSecret .working] store) ∧
      ∃ rest store', (credentials .other).run (credentials .other).init
          ([.save tillId oldSecret { dpapi := true, keyring := false }] ++ .save tillId newSecret .working :: rest)
            = some store' ∧
        ¬ ReturnsLast .other
          ([.save tillId oldSecret { dpapi := true, keyring := false }] ++ .save tillId newSecret .working :: rest)
            store' := by
  constructor
  · have hpath : ∃ store, (credentials .darwin).Path (LeavesNoStale .darwin) (credentials .darwin).init
        [.save tillId oldSecret .working, .save tillId newSecret .working] store := by
      refine ⟨_, .cons rfl ?_ (.cons rfl ?_ (.nil _))⟩
      · intro place _ t ht
        cases place <;> cases ht
      · intro place hplace t ht
        cases place with
        | windows => cases ht
        | fallback => exact absurd rfl hplace
        | keyring => cases ht
    obtain ⟨store, hpath⟩ := hpath
    exact ⟨store, hpath, (returns_last_saved .darwin).1 _ _ hpath⟩
  · refine (returns_last_saved .other).2 _ _ _ rfl fun h => ?_
    have hne : SecretPlace.fallback ≠ saveTarget .other .working tillId.text newSecret.text := by decide +kernel
    have hold : oldSecret.text = newSecret.text := h .fallback hne oldSecret.text (by decide +kernel)
    exact absurd hold (by decide)

/-- the keyring comes up between two saves, and the first secret is returned -/
theorem stale_secret_returned : ∃ store, (credentials .other).run (credentials .other).init
      [.save tillId oldSecret { dpapi := false, keyring := false },
        .save tillId newSecret { dpapi := false, keyring := true }]
        = some store ∧
    loadAgentSecret .other .working store tillId.text = .ok (some oldSecret.text) ∧
    ¬ ReturnsLast .other
      [.save tillId oldSecret { dpapi := false, keyring := false },
        .save tillId newSecret { dpapi := false, keyring := true }]
      store := by
  refine ⟨_, rfl, by decide +kernel, fun h => ?_⟩
  have hload := h.saved [.save tillId oldSecret { dpapi := false, keyring := false }] tillId newSecret _ rfl
  revert hload
  decide +kernel

end PrintAgent
