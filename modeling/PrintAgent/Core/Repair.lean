import PrintAgent.Core.Pairing
import PrintAgent.Credentials

/-!
# Pairing a machine again

`pair` on a machine that is paired.  It saves the secret, then computes the host of the web origin, then
saves the configuration; it may fail or be stopped anywhere, a file then has a part of its text.

* `Site`                   what is on the machine;
* `pairLeaves`             what `pair` leaves, by the step where it ends;
* `AllOrNothing`           what is loaded after it is the old pairing or the new one;
* `HasFirst`               the place that has the secret of an id, in the order in which they are asked;
* `KeepsPairing`           the condition, on the place of the old secret, the place that is written, and the text
                           that is written there;
* `repair_all_or_nothing`  the one holds exactly under the other;
* `repair_loses_secret`    a reply whose web origin is no URL, and a machine without a secret.
-/

namespace PrintAgent

open PyJson (Str CodePoint Limits Value isEncodable)
open PyUrl (Unicode)

/-- the store of the secret, and the text of `config.json` -/
structure Site where
  store : CredentialStore
  config : Option Str

/-- a text that is written in part: it ends after a number of characters, or within the next one -/
structure Cut where
  written : Nat
  within : Bool
  deriving DecidableEq, Repr

/-- only a character of more than one byte has an inside -/
def Cut.leaves (cut : Cut) (s : Str) : FileText :=
  if cut.within && s[cut.written]?.any (fun c => match c with | .scalar d => 0x80 ≤ d.toNat | .surrogate _ => false)
  then
    .undecodable
  else .text (s.take cut.written)

/-- the text of the fallback file; one that cannot be encoded is not written at all -/
def writtenText (p : Platform) (agentId secret : Str) : Str :=
  if isEncodable (record agentId secret) then fallbackText p agentId secret else []

/-- `save_agent_secret` that does not return: the keyring takes an entry whole or not at all -/
def cutAgentSecret (p : Platform) (b : Backends) (agentId secret : Str) (cut : Cut) (store : CredentialStore) :
    CredentialStore :=
  match saveTarget p b agentId secret with
  | .windows => { store with windowsSecret := some .damaged }
  | .fallback => { store with fallback := some (cut.leaves (writtenText p agentId secret)) }
  | .keyring => store

def ReplyData.isText (reply : ReplyData) : Bool :=
  match reply.agentId, reply.agentSecret with
  | .str _, .str _ => true
  | _, _ => false

/-- the place that the secret of the reply is written to: a file has what `str` makes of the values -/
def ReplyData.target (py : Builtins) (p : Platform) (b : Backends) (reply : ReplyData) : SecretPlace :=
  saveTarget p b (py.str reply.agentId) (py.str reply.agentSecret)

/-- `save_agent_secret` with the values of a reply: whether it returns, and the store that it leaves.  The user names
and passwords of a keyring are texts, it takes nothing else -/
def ReplyData.saveSecret (py : Builtins) (p : Platform) (b : Backends) (reply : ReplyData) (store : CredentialStore) :
    Bool × CredentialStore :=
  if reply.target py p b = .keyring ∧ reply.isText = false then (false, store)
  else
    match saveAgentSecret p b (py.str reply.agentId) (py.str reply.agentSecret) store with
    | (.ok _, store) => (true, store)
    | (.error _, store) => (false, store)

/-- `load_agent_secret` of an id that was loaded: no file and no keyring has an id that is no text -/
def loadSecret (p : Platform) (reading : Backends) (store : CredentialStore) : Value → Except CredentialExc (Option Str)
  | .str id => loadAgentSecret p reading store id
  | _ =>
    match store.fallback with
    | some .undecodable => .error .unicodeDecodeError
    | _ => .ok none

/-- where `pair` ends -/
inductive PairStop where
  /-- before it writes: no answer, a refusal, a reply without a field, or a crash -/
  | notSaved
  | savingSecret (cut : Cut)
  /-- `save_config` raises before it opens the file, or is not reached -/
  | secretSaved
  /-- so many characters of the configuration are written, or all of them -/
  | savingConfig (written : Nat)
  deriving DecidableEq, Repr

/-- what `pair` leaves, for a reply that it accepts -/
def pairLeaves (py : Builtins) (u : Unicode) (p : Platform) (b : Backends) (webUrl : Str) (reply : ReplyData)
    (site : Site) :
    PairStop → Site
  | .notSaved => site
  | .savingSecret cut =>
    { site with store := cutAgentSecret p b (py.str reply.agentId) (py.str reply.agentSecret) cut site.store }
  | .secretSaved => { site with store := (reply.saveSecret py p b site.store).2 }
  | .savingConfig written =>
    match reply.saveSecret py p b site.store, reply.pair py u webUrl with
    | (true, store), .ok config => { store, config := some (config.save.take written) }
    -- `save_agent_secret` or `urlparse` raises
    | (_, store), _ => { site with store }

structure Pairing where
  agentId : Value
  hubUrl : Value
  allowedDocumentHost : Value
  secret : Value

def LoadedConfig.pairing (config : LoadedConfig) (secret : Value) : Pairing where
  agentId := config.agentId
  hubUrl := config.hubUrl
  allowedDocumentHost := config.allowedDocumentHost
  secret := secret

/-- `load_config()` and `load_agent_secret` for its id -/
def Site.pairing (limits : Limits) (p : Platform) (reading : Backends) (site : Site) : Option Pairing :=
  match LoadedConfig.load limits site.config with
  | .error _ => none
  | .ok config =>
    match loadSecret p reading site.store config.agentId with
    | .ok (some secret) => some (config.pairing (.str secret))
    | _ => none

/-- the pairing of the reply, if its web origin is a URL -/
def newPairing (py : Builtins) (u : Unicode) (webUrl : Str) (reply : ReplyData) : Option Pairing :=
  match reply.pair py u webUrl with
  | .error _ => none
  | .ok config => some (config.pairing reply.agentSecret)

/-- what is loaded is what was loaded before, or the pairing of the reply -/
def AllOrNothing (limits : Limits) (py : Builtins) (u : Unicode) (p : Platform) (reading : Backends) (webUrl : Str)
    (reply : ReplyData) (site after : Site) : Prop :=
  after.pairing limits p reading = site.pairing limits p reading ∨
    ∃ new, newPairing py u webUrl reply = some new ∧ after.pairing limits p reading = some new

/-! ## the places, in the order in which they are asked -/

def SecretPlace.rank : SecretPlace → Nat
  | .windows => 0
  | .fallback => 1
  | .keyring => 2

abbrev Answers := SecretPlace → Except CredentialExc (Option Str)

/-- this place has the secret, and no place that is asked before it has any -/
structure HasFirst (answer : Answers) (place : SecretPlace) (secret : Str) : Prop where
  found : answer place = .ok (some secret)
  silent : ∀ q, q.rank < place.rank → answer q = .ok none

/-- among the places that are asked after this one, the first that has a secret has a good one -/
def HasAfter (answer : Answers) (place : SecretPlace) (good : Str → Prop) : Prop :=
  ∃ q secret, place.rank < q.rank ∧ answer q = .ok (some secret) ∧ good secret ∧
    ∀ r, place.rank < r.rank → r.rank < q.rank → answer r = .ok none

/-- a good secret for an id that had this one in this place, when the place `target` answers `written` instead -/
def KeepsGood (answer : Answers) (holder target : SecretPlace) (written : Except CredentialExc (Option Str))
    (good : Str → Prop) : Prop :=
  -- the place of the old secret is asked before
  holder.rank < target.rank ∨
    -- what is written gives a good secret
    (∃ secret, written = .ok (some secret) ∧ good secret) ∨
    -- what is written gives the id none, and the old secret is in a place that is asked after it, or another one is
    written = .ok none ∧ (target.rank < holder.rank ∨ HasAfter answer target good)

/-- a good secret for an id of which nothing is known, when the place `target` answers `written` instead -/
def FindsGood (answer : Answers) (target : SecretPlace) (written : Except CredentialExc (Option Str))
    (good : Str → Prop) :
    Prop :=
  (∃ place secret, place.rank < target.rank ∧ HasFirst answer place secret ∧ good secret) ∨
    (∀ q, q.rank < target.rank → answer q = .ok none) ∧
      ((∃ secret, written = .ok (some secret) ∧ good secret) ∨ written = .ok none ∧ HasAfter answer target good)

/-! ## the condition -/

section Condition
variable (py : Builtins) (p : Platform) (b reading : Backends) (reply : ReplyData) (store : CredentialStore)

/-- the keyring takes no value that is no text, and a file none that cannot be encoded -/
def ReplyData.SaveRaises : Prop :=
  reply.target py p b = .keyring ∧ reply.isText = false ∨
    reply.target py p b = .fallback ∧ isEncodable (record (py.str reply.agentId) (py.str reply.agentSecret)) = false

/-- what a place answers for an id once the secret of the reply is written there -/
def ReplyData.newAnswer (id : Str) : Answers
  | .windows =>
    .ok (truthy (if p = .win32 ∧ reading.dpapi then
      windowsSecretOf id (record (py.str reply.agentId) (py.str reply.agentSecret)) else none))
  | .fallback => .ok (fallbackSecretOf id (writtenText p (py.str reply.agentId) (py.str reply.agentSecret)))
  | .keyring =>
    if reply.isText then
      .ok (truthy (if reading.keyring then
        Function.update store.keyring (py.str reply.agentId) (some (py.str reply.agentSecret)) id else none))
    else store.secretAt p reading id .keyring

def ReplyData.cutAnswer (cut : Cut) (id : Str) : Answers
  | .windows => .ok none
  | .fallback =>
    match cut.leaves (writtenText p (py.str reply.agentId) (py.str reply.agentSecret)) with
    | .text s => .ok (fallbackSecretOf id s)
    | .undecodable => .error .unicodeDecodeError
  | .keyring => store.secretAt p reading id .keyring

end Condition

/-- the same id, hub and host -/
structure LoadedConfig.Repeats (config other : LoadedConfig) : Prop where
  agentId : config.agentId = other.agentId
  hubUrl : config.hubUrl = other.hubUrl
  allowedDocumentHost : config.allowedDocumentHost = other.allowedDocumentHost

section Condition
variable (py : Builtins) (u : Unicode) (webUrl : Str) (reply : ReplyData) (config : LoadedConfig) (secret : Str)

/-- the secret that goes with a configuration: the old one if it has the old id, hub and host, the one of the
reply if it has those of the reply -/
def GoesWith (loaded : LoadedConfig) (s : Str) : Prop :=
  loaded.Repeats config ∧ s = secret ∨
    ∃ host, originHost py u (reply.webOrigin webUrl) = .ok host ∧ loaded.Repeats (reply.config host) ∧
      reply.agentSecret = .str s

variable (p : Platform) (b reading : Backends) (store : CredentialStore) (id : Str)

/-- the condition while `config.json` is the old one -/
def KeepsOld (written : Answers) : Prop :=
  ∃ holder, HasFirst (store.secretAt p reading id) holder secret ∧
    KeepsGood (store.secretAt p reading id) holder (reply.target py p b) (written (reply.target py p b))
      (GoesWith py u webUrl reply config secret config)

/-- the condition, by the step where `pair` ends; a `config.json` that is cut has no id -/
def KeepsPairing (stop : PairStop) : Prop :=
  let keepsOld := KeepsOld py u webUrl reply config secret p b reading store id
  let saved := reply.newAnswer py p reading store
  match stop with
  | .notSaved => True
  | .savingSecret cut => keepsOld (reply.cutAnswer py p reading store cut id)
  | .secretSaved => keepsOld (saved id)
  | .savingConfig written =>
    match originHost py u (reply.webOrigin webUrl) with
    | .error _ => keepsOld (saved id)
    | .ok host =>
      reply.SaveRaises py p b ∧ keepsOld (saved id) ∨
        ¬ reply.SaveRaises py p b ∧ (reply.config host).save.length ≤ written ∧
          ∃ newId, reply.agentId = .str newId ∧
            FindsGood (store.secretAt p reading newId.joined) (reply.target py p b)
            (saved newId.joined (reply.target py p b))
              (GoesWith py u webUrl reply config secret (reply.config host).joined)

end Condition

section Places
variable {answer : Answers} {place target : SecretPlace} {secret : Str} {written : Except CredentialExc (Option Str)}
  {good : Str → Prop}

theorem SecretPlace.rank_inj {q : SecretPlace} (h : place.rank = q.rank) : place = q := by
  cases place <;> cases q <;> first | rfl | cases h

theorem firstSecret_eq_some : firstSecret answer = .ok (some secret) ↔ ∃ place, HasFirst answer place secret := by
  constructor
  · intro h
    cases hwindows : answer .windows with
    | error e =>
      rw [firstSecret, hwindows] at h
      cases h
    | ok found =>
      cases found with
      | some t =>
        cases h.symm.trans (firstSecret_windows hwindows)
        exact ⟨.windows, hwindows, fun q hq => absurd hq (Nat.not_lt_zero _)⟩
      | none =>
        cases hfallback : answer .fallback with
        | error e =>
          rw [firstSecret, hwindows, hfallback] at h
          cases h
        | ok found =>
          cases found with
          | some t =>
            cases h.symm.trans (firstSecret_fallback hwindows hfallback)
            refine ⟨.fallback, hfallback, fun q hq => ?_⟩
            cases q with
            | windows => exact hwindows
            | fallback | keyring => exact absurd hq (by decide)
          | none =>
            refine ⟨.keyring, (firstSecret_keyring hwindows hfallback).symm.trans h, fun q hq => ?_⟩
            cases q with
            | windows => exact hwindows
            | fallback => exact hfallback
            | keyring => exact absurd hq (by decide)
  · rintro ⟨place, hfound, hsilent⟩
    cases place with
    | windows => exact firstSecret_windows hfound
    | fallback => exact firstSecret_fallback (hsilent .windows (by decide)) hfound
    | keyring => exact (firstSecret_keyring (hsilent .windows (by decide)) (hsilent .fallback (by decide))).trans hfound

theorem HasFirst.unique {q : SecretPlace} {s : Str} (h : HasFirst answer place secret) (hq : HasFirst answer q s) :
    place = q ∧ secret = s := by
  have hplace : place = q := by
    rcases Nat.lt_trichotomy place.rank q.rank with hlt | heq | hlt
    · cases h.found.symm.trans (hq.silent place hlt)
    · exact SecretPlace.rank_inj heq
    · cases hq.found.symm.trans (h.silent q hlt)
  subst hplace
  cases h.found.symm.trans hq.found
  exact ⟨rfl, rfl⟩

/-- **Where the first secret is when one place answers something else.** -/
theorem exists_hasFirst_update :
    (∃ place secret, HasFirst (Function.update answer target written) place secret ∧ good secret) ↔
      FindsGood answer target written good := by
  have hother : ∀ q, q.rank ≠ target.rank → Function.update answer target written q = answer q := by
    intro q hq
    exact Function.update_of_ne (fun he => hq (congrArg SecretPlace.rank he)) written answer
  have hself : Function.update answer target written target = written := Function.update_self target written answer
  constructor
  · rintro ⟨place, secret, ⟨hfound, hsilent⟩, hgood⟩
    have hbefore : ∀ q, q.rank < place.rank → q.rank ≠ target.rank → answer q = .ok none := by
      intro q hq hne
      rw [← hother q hne]
      exact hsilent q hq
    rcases Nat.lt_trichotomy place.rank target.rank with hlt | heq | hlt
    · rw [hother place (Nat.ne_of_lt hlt)] at hfound
      exact .inl ⟨place, secret, hlt, ⟨hfound, fun q hq => hbefore q hq (by omega)⟩, hgood⟩
    · cases SecretPlace.rank_inj heq
      rw [hself] at hfound
      exact .inr ⟨fun q hq => hbefore q hq (by omega), .inl ⟨secret, hfound, hgood⟩⟩
    · have hwritten : written = .ok none := by
        rw [← hself]
        exact hsilent target hlt
      rw [hother place (Nat.ne_of_gt hlt)] at hfound
      refine .inr ⟨fun q hq => hbefore q (by omega) (by omega), .inr ⟨hwritten, place, secret, hlt, hfound, hgood, ?_⟩⟩
      exact fun r htarget hr => hbefore r hr (by omega)
  · rintro (⟨place, secret, hlt, ⟨hfound, hsilent⟩, hgood⟩ | ⟨hsilent, hrest⟩)
    · refine ⟨place, secret, ⟨?_, fun q hq => ?_⟩, hgood⟩
      · rw [hother place (by omega), hfound]
      · rw [hother q (by omega), hsilent q hq]
    · rcases hrest with ⟨secret, hwritten, hgood⟩ | ⟨hwritten, place, secret, hlt, hfound, hgood, hbetween⟩
      · refine ⟨target, secret, ⟨by rw [hself, hwritten], fun q hq => ?_⟩, hgood⟩
        rw [hother q (by omega), hsilent q hq]
      · refine ⟨place, secret, ⟨by rw [hother place (by omega), hfound], fun q hq => ?_⟩, hgood⟩
        rcases Nat.lt_trichotomy q.rank target.rank with hq' | heq | hq'
        · rw [hother q (by omega), hsilent q hq']
        · rw [SecretPlace.rank_inj heq, hself, hwritten]
        · rw [hother q (by omega), hbetween q hq' hq]

/-- where the old secret is good, its place decides most of it -/
theorem findsGood_iff {holder : SecretPlace} (h : HasFirst answer holder secret) (hgood : good secret) :
    FindsGood answer target written good ↔ KeepsGood answer holder target written good := by
  constructor
  · rintro (⟨place, s, hlt, hfirst, -⟩ | ⟨-, hwritten | ⟨hnone, hafter⟩⟩)
    · obtain ⟨rfl, -⟩ := h.unique hfirst
      exact .inl hlt
    · exact .inr (.inl hwritten)
    · exact .inr (.inr ⟨hnone, .inr hafter⟩)
  · by_cases hlt : holder.rank < target.rank
    · exact fun _ => .inl ⟨holder, secret, hlt, h, hgood⟩
    · have hsilent : ∀ q, q.rank < target.rank → answer q = .ok none := fun q hq => h.silent q (by omega)
      rintro (hlt' | hwritten | ⟨hnone, hbefore | hafter⟩)
      · exact absurd hlt' hlt
      · exact .inr ⟨hsilent, .inl hwritten⟩
      · exact .inr ⟨hsilent, .inr ⟨hnone, holder, secret, hbefore, h.found, hgood, fun r _ hr => h.silent r hr⟩⟩
      · exact .inr ⟨hsilent, .inr ⟨hnone, hafter⟩⟩

end Places

section Saved
variable {py : Builtins} {p : Platform} {b reading : Backends} {reply : ReplyData} {store : CredentialStore}

theorem saveTarget_eq : saveTarget p b (py.str reply.agentId) (py.str reply.agentSecret) = reply.target py p b := rfl

theorem saveSecret_of_refused (h : reply.target py p b = .keyring ∧ reply.isText = false) :
    reply.saveSecret py p b store = (false, store) := by
  rw [ReplyData.saveSecret, if_pos h]

theorem saveSecret_of_taken (h : ¬ (reply.target py p b = .keyring ∧ reply.isText = false)) :
    reply.saveSecret py p b store =
      ((saveAgentSecret p b (py.str reply.agentId) (py.str reply.agentSecret) store).1.isOk,
        (saveAgentSecret p b (py.str reply.agentId) (py.str reply.agentSecret) store).2) := by
  rw [ReplyData.saveSecret, if_neg h]
  rcases saveAgentSecret p b (py.str reply.agentId) (py.str reply.agentSecret) store with ⟨_ | _, _⟩ <;> rfl

theorem secretAt_saveSecret (id : Str) : (reply.saveSecret py p b store).2.secretAt p reading id =
    Function.update (store.secretAt p reading id) (reply.target py p b)
      (reply.newAnswer py p reading store id (reply.target py p b)) := by
  by_cases hrefused : reply.target py p b = .keyring ∧ reply.isText = false
  · have hsame : reply.newAnswer py p reading store id (reply.target py p b) =
        store.secretAt p reading id (reply.target py p b) := by
      rw [hrefused.1, ReplyData.newAnswer, hrefused.2, if_neg Bool.false_ne_true]
    rw [hsame, Function.update_eq_self, saveSecret_of_refused hrefused]
  · rw [saveSecret_of_taken hrefused]
    funext place
    by_cases hplace : place = reply.target py p b
    · subst hplace
      rw [Function.update_self, saveAgentSecret_eq, saveTarget_eq]
      cases htarget : reply.target py p b with
      | windows => rfl
      | keyring =>
        have htext : reply.isText = true := by
          rw [htarget] at hrefused
          exact eq_true_of_ne_false fun h => hrefused ⟨rfl, h⟩
        rw [ReplyData.newAnswer, if_pos htext]
        rfl
      | fallback =>
        dsimp only
        rw [ReplyData.newAnswer, writtenText]
        split <;> rfl
    · rw [Function.update_of_ne hplace]
      exact secretAt_save_of_ne hplace

theorem saveSecret_fst : (reply.saveSecret py p b store).1 = true ↔ ¬ reply.SaveRaises py p b := by
  unfold ReplyData.SaveRaises
  by_cases hrefused : reply.target py p b = .keyring ∧ reply.isText = false
  · rw [saveSecret_of_refused hrefused]
    exact iff_of_false Bool.false_ne_true fun h => h (.inl hrefused)
  · rw [saveSecret_of_taken hrefused, saveAgentSecret_eq, saveTarget_eq, or_iff_right hrefused]
    cases reply.target py p b with
    | windows => exact iff_of_true rfl fun h => SecretPlace.noConfusion h.1
    | keyring => exact iff_of_true rfl fun h => SecretPlace.noConfusion h.1
    | fallback =>
      dsimp only
      cases isEncodable (record (py.str reply.agentId) (py.str reply.agentSecret)) with
      | true => exact iff_of_true rfl fun h => Bool.noConfusion h.2
      | false => exact iff_of_false Bool.false_ne_true fun h => h ⟨rfl, rfl⟩

theorem secretAt_cut (cut : Cut) (id : Str) :
    (cutAgentSecret p b (py.str reply.agentId) (py.str reply.agentSecret) cut store).secretAt p reading id =
      Function.update (store.secretAt p reading id) (reply.target py p b)
        (reply.cutAnswer py p reading store cut id (reply.target py p b)) := by
  funext place
  unfold cutAgentSecret
  rw [saveTarget_eq]
  cases reply.target py p b with
  | windows =>
    cases place with
    | windows =>
      rw [Function.update_self]
      show Except.ok (truthy (if p = .win32 ∧ reading.dpapi then none else none)) = _
      rw [ite_self]
      rfl
    | fallback => rfl
    | keyring => rfl
  | fallback =>
    cases place with
    | windows => rfl
    | fallback =>
      rw [Function.update_self]
      show loadFallback
        { store with
          fallback := some (cut.leaves (writtenText p (py.str reply.agentId) (py.str reply.agentSecret))) } id =
        reply.cutAnswer py p reading store cut id .fallback
      unfold loadFallback ReplyData.cutAnswer
      cases cut.leaves (writtenText p (py.str reply.agentId) (py.str reply.agentSecret)) <;> rfl
    | keyring => rfl
  | keyring => cases place <;> rfl

end Saved

section Configurations
variable {limits : Limits} {py : Builtins} {u : Unicode} {p : Platform} {b reading : Backends} {webUrl : Str}
  {reply : ReplyData} {site after : Site} {config loaded : LoadedConfig} {id secret : Str}

theorem exists_of_loadSecret {store : CredentialStore} {value : Value}
    (h : loadSecret p reading store value = .ok (some secret)) :
    ∃ id, value = .str id ∧ ∃ holder, HasFirst (store.secretAt p reading id) holder secret := by
  cases value with
  | str id =>
    have hload : loadAgentSecret p reading store id = .ok (some secret) := h
    rw [loadAgentSecret_eq] at hload
    exact ⟨id, rfl, firstSecret_eq_some.mp hload⟩
  | null | bool _ | int _ | float _ | arr _ | obj _ =>
    unfold loadSecret at h
    dsimp only at h
    split at h <;> cases h

theorem pairing_eq_some (hconfig : LoadedConfig.load limits site.config = .ok loaded) (hid : loaded.agentId = .str id)
    {pairing : Pairing} : site.pairing limits p reading = some pairing ↔
      ∃ place s, HasFirst (site.store.secretAt p reading id) place s ∧ loaded.pairing (.str s) = pairing := by
  have hload : loadSecret p reading site.store loaded.agentId = firstSecret (site.store.secretAt p reading id) := by
    rw [hid, ← loadAgentSecret_eq]
    rfl
  unfold Site.pairing
  simp only [hconfig, hload]
  constructor
  · intro h
    cases hfirst : firstSecret (site.store.secretAt p reading id) with
    | error e =>
      rw [hfirst] at h
      cases h
    | ok found =>
      cases found with
      | none =>
        rw [hfirst] at h
        cases h
      | some s =>
        rw [hfirst] at h
        obtain ⟨place, hplace⟩ := firstSecret_eq_some.mp hfirst
        exact ⟨place, s, hplace, Option.some.inj h⟩
  · rintro ⟨place, s, hplace, rfl⟩
    rw [firstSecret_eq_some.mpr ⟨place, hplace⟩]

theorem pairing_eq_none
    (h : ∀ loaded, LoadedConfig.load limits site.config = .ok loaded → ∀ id, loaded.agentId ≠ .str id) :
    site.pairing limits p reading = none := by
  unfold Site.pairing
  cases hconfig : LoadedConfig.load limits site.config with
  | error e => rfl
  | ok loaded =>
    dsimp only
    cases hload : loadSecret p reading site.store loaded.agentId with
    | error e => rfl
    | ok found =>
      cases found with
      | none => rfl
      | some s =>
        obtain ⟨id, hid, -⟩ := exists_of_loadSecret hload
        exact absurd hid (h loaded hconfig id)

theorem pairing_inj {other : LoadedConfig} {s t : Value} :
    config.pairing s = other.pairing t ↔ config.Repeats other ∧ s = t := by
  constructor
  · intro h
    have hid := congrArg Pairing.agentId h
    have hhub := congrArg Pairing.hubUrl h
    have hhost := congrArg Pairing.allowedDocumentHost h
    exact ⟨⟨hid, hhub, hhost⟩, congrArg Pairing.secret h⟩
  · rintro ⟨⟨hid, hhub, hhost⟩, rfl⟩
    unfold LoadedConfig.pairing
    rw [hid, hhub, hhost]

theorem newPairing_eq_some {new : Pairing} : newPairing py u webUrl reply = some new ↔
    ∃ host, originHost py u (reply.webOrigin webUrl) = .ok host ∧
    (reply.config host).pairing reply.agentSecret = new := by
  unfold newPairing
  cases h : originHost py u (reply.webOrigin webUrl) with
  | error e =>
    rw [ReplyData.pair_of_error h]
    constructor
    · intro hnew
      cases hnew
    · rintro ⟨host, hhost, -⟩
      cases hhost
  | ok host =>
    rw [ReplyData.pair_of_host h]
    constructor
    · intro hnew
      exact ⟨host, rfl, Option.some.inj hnew⟩
    · rintro ⟨_, hhost, rfl⟩
      cases hhost
      rfl

/-- what is left is the old pairing or the new one where the first secret goes with the configuration -/
theorem allOrNothing_iff (hold : site.pairing limits p reading = some (config.pairing (.str secret)))
    (hconfig : LoadedConfig.load limits after.config = .ok loaded) (hid : loaded.agentId = .str id) :
    AllOrNothing limits py u p reading webUrl reply site after ↔
      ∃ place s, HasFirst (after.store.secretAt p reading id) place s ∧
      GoesWith py u webUrl reply config secret loaded s := by
  unfold AllOrNothing
  rw [hold, pairing_eq_some hconfig hid]
  constructor
  · rintro (⟨place, s, hfirst, hpairing⟩ | ⟨new, hnew, hafter⟩)
    · obtain ⟨hrepeats, hs⟩ := pairing_inj.mp hpairing
      exact ⟨place, s, hfirst, .inl ⟨hrepeats, Value.str.inj hs⟩⟩
    · obtain ⟨host, hhost, hpairing⟩ := newPairing_eq_some.mp hnew
      obtain ⟨place, s, hfirst, hsame⟩ := (pairing_eq_some hconfig hid).mp hafter
      obtain ⟨hrepeats, hs⟩ := pairing_inj.mp (hsame.trans hpairing.symm)
      exact ⟨place, s, hfirst, .inr ⟨host, hhost, hrepeats, hs.symm⟩⟩
  · rintro ⟨place, s, hfirst, ⟨hrepeats, rfl⟩ | ⟨host, hhost, hrepeats, hs⟩⟩
    · exact .inl ⟨place, s, hfirst, pairing_inj.mpr ⟨hrepeats, rfl⟩⟩
    · refine .inr ⟨_, newPairing_eq_some.mpr ⟨host, hhost, rfl⟩,
        (pairing_eq_some hconfig hid).mpr ⟨place, s, hfirst, ?_⟩⟩
      exact pairing_inj.mpr ⟨hrepeats, hs.symm⟩

theorem keepsOld_of_first {store : CredentialStore} {holder : SecretPlace}
    (hholder : HasFirst (store.secretAt p reading id) holder secret) {written : Answers} :
    KeepsOld py u webUrl reply config secret p b reading store id written ↔
      KeepsGood (store.secretAt p reading id) holder (reply.target py p b) (written (reply.target py p b))
        (GoesWith py u webUrl reply config secret config) := by
  constructor
  · rintro ⟨place, hplace, h⟩
    obtain ⟨rfl, -⟩ := hholder.unique hplace
    exact h
  · exact fun h => ⟨holder, hholder, h⟩

/-- **While `config.json` is the old one.** -/
theorem keepsOld_iff (hconfig : LoadedConfig.load limits site.config = .ok config) (hid : config.agentId = .str id)
    {holder : SecretPlace} (hholder : HasFirst (site.store.secretAt p reading id) holder secret)
    (hafter : after.config = site.config) {written : Answers}
    (hanswers : after.store.secretAt p reading id =
      Function.update (site.store.secretAt p reading id) (reply.target py p b) (written (reply.target py p b))) :
    AllOrNothing limits py u p reading webUrl reply site after ↔
      KeepsOld py u webUrl reply config secret p b reading site.store id written := by
  have hold : site.pairing limits p reading = some (config.pairing (.str secret)) :=
    (pairing_eq_some hconfig hid).mpr ⟨holder, secret, hholder, rfl⟩
  have hloaded : LoadedConfig.load limits after.config = .ok config := by rw [hafter, hconfig]
  have hgood : GoesWith py u webUrl reply config secret config secret := .inl ⟨⟨rfl, rfl, rfl⟩, rfl⟩
  rw [allOrNothing_iff hold hloaded hid, hanswers, exists_hasFirst_update, findsGood_iff hholder hgood,
    keepsOld_of_first hholder]

end Configurations

/-! ## ids and secrets of one word -/

section Words
variable {py : Builtins} {u : Unicode} {p : Platform} {b : Backends} {webUrl : Str} {reply : ReplyData}
  {store : CredentialStore} {config : LoadedConfig} {id secret : Str} {newId newSecret : Token}

theorem newAnswer_words (hid : reply.agentId = .str newId.text) (hsecret : reply.agentSecret = .str newSecret.text) :
    reply.newAnswer py p .working store id (reply.target py p b) =
      if id = newId.text then .ok (some newSecret.text)
      else if reply.target py p b = .keyring then store.secretAt p .working id .keyring
      else .ok none := by
  have htarget : reply.target py p b = saveTarget p b newId.text newSecret.text := by
    rw [ReplyData.target, hid, hsecret, py.str_text, py.str_text]
  have htruthy : truthy (some newSecret.text) = some newSecret.text := if_pos (decide_eq_true newSecret.ne_nil)
  have htext : reply.isText = true := by rw [ReplyData.isText, hid, hsecret]
  have hwindows : reply.target py p b = .windows → p = .win32 := by
    intro h
    by_contra hp
    rw [htarget, saveTarget, if_neg fun h => hp h.1] at h
    split at h <;> cases h
  cases hplace : reply.target py p b with
  | windows =>
    rw [ReplyData.newAnswer, hid, hsecret, py.str_text, py.str_text, Token.windowsSecretOf_record,
      if_pos ⟨hwindows hplace, rfl⟩]
    by_cases h : id = newId.text
    · rw [if_pos h, if_pos h, htruthy]
    · rw [if_neg h, if_neg h]
      rfl
  | fallback =>
    rw [ReplyData.newAnswer, hid, hsecret, py.str_text, py.str_text, writtenText,
      if_pos (Token.isEncodable_record newId newSecret), Token.fallbackSecretOf_fallbackText]
    by_cases h : id = newId.text
    · rw [if_pos h, if_pos h]
    · rw [if_neg h, if_neg h]
      rfl
  | keyring =>
    rw [ReplyData.newAnswer, if_pos htext, hid, hsecret, py.str_text, py.str_text]
    show Except.ok (truthy (Function.update store.keyring newId.text (some newSecret.text) id)) = _
    by_cases h : id = newId.text
    · rw [if_pos h, h, Function.update_self, htruthy]
    · rw [if_neg h, Function.update_of_ne h]
      rfl

/-- the condition between the two writes: by the places alone for another id, and for the same one by the secrets too -/
theorem keepsOld_words (hid : reply.agentId = .str newId.text) (hsecret : reply.agentSecret = .str newSecret.text)
    (hold : config.agentId = .str id) {holder : SecretPlace}
    (hholder : HasFirst (store.secretAt p .working id) holder secret) :
    KeepsOld py u webUrl reply config secret p b .working store id (reply.newAnswer py p .working store id) ↔
      if id = newId.text then
        holder.rank < (reply.target py p b).rank ∨ GoesWith py u webUrl reply config secret config newSecret.text
      else
        reply.target py p b = .keyring ∨ holder ≠ reply.target py p b ∨
          HasAfter (store.secretAt p .working id) (reply.target py p b) (· = secret) := by
  have hgood : GoesWith py u webUrl reply config secret config secret := .inl ⟨⟨rfl, rfl, rfl⟩, rfl⟩
  rw [keepsOld_of_first hholder, newAnswer_words hid hsecret]
  by_cases h : id = newId.text
  · rw [if_pos h, if_pos h]
    constructor
    · rintro (hlt | ⟨s, hs, hgood⟩ | ⟨hnone, -⟩)
      · exact .inl hlt
      · cases hs
        exact .inr hgood
      · cases hnone
    · rintro (hlt | hgood)
      · exact .inl hlt
      · exact .inr (.inl ⟨newSecret.text, rfl, hgood⟩)
  · rw [if_neg h, if_neg h]
    -- the reply has another id, so only the old secret goes with the old configuration
    have honly : ∀ s, GoesWith py u webUrl reply config secret config s ↔ s = secret := by
      intro s
      constructor
      · rintro (⟨-, hs⟩ | ⟨host, -, hrepeats, -⟩)
        · exact hs
        · have hsame : Value.str id = .str newId.text := by
            rw [← hold, ← hid]
            exact hrepeats.agentId
          exact absurd (Value.str.inj hsame) h
      · rintro rfl
        exact hgood
    have hafter : HasAfter (store.secretAt p .working id) (reply.target py p b)
      (GoesWith py u webUrl reply config secret config)
        ↔ HasAfter (store.secretAt p .working id) (reply.target py p b) (· = secret) := by
      unfold HasAfter
      simp only [honly]
    by_cases hkeyring : reply.target py p b = .keyring
    · rw [if_pos hkeyring]
      refine iff_of_true ?_ (.inl hkeyring)
      by_cases hlast : holder = .keyring
      · subst hlast
        exact .inr (.inl ⟨secret, hholder.found, hgood⟩)
      · refine .inl ?_
        rw [hkeyring]
        cases holder with
        | windows | fallback => decide
        | keyring => exact absurd rfl hlast
    · rw [if_neg hkeyring, or_iff_right hkeyring]
      constructor
      · rintro (hlt | ⟨s, hs, -⟩ | ⟨-, hlt | hmore⟩)
        · exact .inl fun he => Nat.lt_irrefl _ (he ▸ hlt)
        · cases hs
        · exact .inl fun he => Nat.lt_irrefl _ (he ▸ hlt)
        · exact .inr (hafter.mp hmore)
      · rintro (hne | hmore)
        · rcases Nat.lt_trichotomy holder.rank (reply.target py p b).rank with hlt | heq | hlt
          · exact .inl hlt
          · exact absurd (SecretPlace.rank_inj heq) hne
          · exact .inr (.inr ⟨rfl, .inl hlt⟩)
        · exact .inr (.inr ⟨rfl, .inr (hafter.mpr hmore)⟩)

end Words

section
variable {limits : Limits} {py : Builtins} {u : Unicode} {p : Platform} {b reading : Backends} {webUrl : Str}
  {reply : ReplyData} {site : Site} {config : LoadedConfig} {id secret : Str}

/-- **Where `pair` ends within `save_config` or returns.** -/
theorem keepsNew_iff (hlimit : 0 < limits.recursionLimit) (hread : reply.IsRead limits)
    (hconfig : LoadedConfig.load limits site.config = .ok config) (hid : config.agentId = .str id)
    {holder : SecretPlace}
    (hholder : HasFirst (site.store.secretAt p reading id) holder secret) (host : Option Str) (written : Nat)
    {after : Site}
    (hafter : after.config = some ((reply.config host).save.take written))
    (hanswers : ∀ id, after.store.secretAt p reading id = Function.update (site.store.secretAt p reading id)
      (reply.target py p b) (reply.newAnswer py p reading site.store id (reply.target py p b))) :
    AllOrNothing limits py u p reading webUrl reply site after ↔
      (reply.config host).save.length ≤ written ∧ ∃ newId, reply.agentId = .str newId ∧
        FindsGood (site.store.secretAt p reading newId.joined) (reply.target py p b)
          (reply.newAnswer py p reading site.store newId.joined (reply.target py p b))
          (GoesWith py u webUrl reply config secret (reply.config host).joined) := by
  have hold : site.pairing limits p reading = some (config.pairing (.str secret)) :=
    (pairing_eq_some hconfig hid).mpr ⟨holder, secret, hholder, rfl⟩
  have hnothing : after.pairing limits p reading = none →
      ¬ AllOrNothing limits py u p reading webUrl reply site after := by
    rintro hnone (h | ⟨new, -, h⟩)
    · rw [hnone, hold] at h
      cases h
    · rw [hnone] at h
      cases h
  by_cases hwritten : (reply.config host).save.length ≤ written
  · have hloaded : LoadedConfig.load limits after.config = .ok (reply.config host).joined := by
      rw [hafter, List.take_of_length_le hwritten]
      exact LoadedConfig.load_save hlimit (ReplyData.fits_config hread host)
    cases hnewId : reply.agentId with
    | str newId =>
      have htext : (reply.config host).joined.agentId = .str newId.joined := by
        show reply.agentId.joined = _
        rw [hnewId]
        rfl
      rw [allOrNothing_iff hold hloaded htext, hanswers, exists_hasFirst_update]
      constructor
      · exact fun h => ⟨hwritten, newId, rfl, h⟩
      · rintro ⟨-, _, hsame, h⟩
        cases hsame
        exact h
    | null | bool _ | int _ | float _ | arr _ | obj _ =>
      refine iff_of_false (hnothing (pairing_eq_none ?_)) ?_
      · intro loaded hload newId hvalue
        rw [hloaded] at hload
        cases hload
        have hjoined : reply.agentId.joined = .str newId := hvalue
        rw [hnewId] at hjoined
        cases hjoined
      · rintro ⟨-, newId, hvalue, -⟩
        cases hvalue
  · refine iff_of_false (hnothing (pairing_eq_none ?_)) fun h => hwritten h.1
    intro loaded hload newId hvalue
    rw [hafter] at hload
    rw [LoadedConfig.load_cut hlimit (ReplyData.fits_config hread host) (Nat.lt_of_not_le hwritten) hload] at hvalue
    cases hvalue

end

/-- **What is on the machine after `pair`, wherever it ends, is the old pairing or the new one exactly where the
condition holds.  Between the two writes, for ids and secrets of one word, the condition is one on the places and on the
two pairings.** -/
theorem repair_all_or_nothing {limits : Limits} (hlimit : 0 < limits.recursionLimit) (py : Builtins) (u : Unicode)
    (p : Platform) (b reading : Backends) (webUrl : Str) {reply : ReplyData} (hread : reply.IsRead limits) {site : Site}
    {config : LoadedConfig} {secret : Str} (hconfig : LoadedConfig.load limits site.config = .ok config)
    (hsecret : loadSecret p reading site.store config.agentId = .ok (some secret)) :
    ∃ id, config.agentId = .str id ∧
      (∀ stop, AllOrNothing limits py u p reading webUrl reply site (pairLeaves py u p b webUrl reply site stop) ↔
        KeepsPairing py u webUrl reply config secret p b reading site.store id stop) ∧
      ∃ holder, HasFirst (site.store.secretAt p reading id) holder secret ∧
        ∀ newId newSecret : Token, reading = .working → reply.agentId = .str newId.text →
          reply.agentSecret = .str newSecret.text →
          (KeepsPairing py u webUrl reply config secret p b reading site.store id .secretSaved ↔
            if id = newId.text then
              holder.rank < (reply.target py p b).rank ∨ GoesWith py u webUrl reply config secret config newSecret.text
            else
              reply.target py p b = .keyring ∨ holder ≠ reply.target py p b ∨
                HasAfter (site.store.secretAt p reading id) (reply.target py p b) (· = secret)) := by
  obtain ⟨id, hid, holder, hholder⟩ := exists_of_loadSecret hsecret
  refine ⟨id, hid, fun stop => ?_, holder, hholder, ?_⟩
  · have hsaved : ∀ after : Site, after.config = site.config → after.store = (reply.saveSecret py p b site.store).2 →
        (AllOrNothing limits py u p reading webUrl reply site after ↔
          KeepsOld py u webUrl reply config secret p b reading site.store id
          (reply.newAnswer py p reading site.store id)) := by
      intro after hafter hstore
      refine keepsOld_iff hconfig hid hholder hafter ?_
      rw [hstore]
      exact secretAt_saveSecret id
    cases stop with
    | notSaved => exact ⟨fun _ => trivial, fun _ => .inl rfl⟩
    | savingSecret cut =>
      have hcut : (pairLeaves py u p b webUrl reply site (.savingSecret cut)).config = site.config := rfl
      exact keepsOld_iff hconfig hid hholder hcut (secretAt_cut cut id)
    | secretSaved => exact hsaved _ rfl rfl
    | savingConfig written =>
      cases hhost : originHost py u (reply.webOrigin webUrl) with
      | error e =>
        simp only [KeepsPairing, hhost]
        refine hsaved _ ?_ ?_ <;> simp only [pairLeaves, ReplyData.pair_of_error hhost]
      | ok host =>
        simp only [KeepsPairing, hhost]
        obtain ⟨returns, store, hsave⟩ : ∃ returns store, reply.saveSecret py p b site.store = (returns, store) :=
          ⟨_, _, rfl⟩
        have hstore : store = (reply.saveSecret py p b site.store).2 := by rw [hsave]
        have hreturns : returns = true ↔ ¬ reply.SaveRaises py p b := by rw [← saveSecret_fst, hsave]
        cases returns with
        | false =>
          have hraises : reply.SaveRaises py p b := by
            by_contra h
            exact Bool.false_ne_true (hreturns.mpr h)
          rw [hsaved _ (by simp only [pairLeaves, hsave]) (by simp only [pairLeaves, hsave])]
          exact ⟨fun h => .inl ⟨hraises, h⟩, fun h => h.elim And.right fun h => absurd hraises h.1⟩
        | true =>
          have hno : ¬ reply.SaveRaises py p b := hreturns.mp rfl
          have hleaves : pairLeaves py u p b webUrl reply site (.savingConfig written) =
              { store, config := some ((reply.config host).save.take written) } := by
            simp only [pairLeaves, hsave, ReplyData.pair_of_host hhost]
          rw [hleaves, keepsNew_iff hlimit hread hconfig hid hholder host written rfl
            (by rw [hstore]; exact secretAt_saveSecret)]
          exact ⟨fun h => .inr ⟨hno, h⟩, fun h => h.elim (fun h => absurd h.1 hno) And.right⟩
  · rintro newId newSecret rfl hnewId hnewSecret
    exact keepsOld_words hnewId hnewSecret hid hholder

def tillConfig : AgentConfig where
  agentId := some tillId.text
  hubUrl := some (Str.ofString "wss://hub.example/ws")
  allowedDocumentHost := some (Str.ofString "app.example")

def pairedTill : Site where
  store := (saveAgentSecret .win32 .working tillId.text oldSecret.text {}).2
  config := some tillConfig.save

def otherId : Token where
  text := Str.ofString "agent-2"
  ne_nil := by decide
  chars := by decide

def tillReply (agentId : Value) (webUrl : String) : ReplyData where
  agentId := agentId
  agentSecret := .str newSecret.text
  hubUrl := .str (Str.ofString "wss://hub.example/ws")
  webUrl := some (.str (Str.ofString webUrl))

/-- `str` of texts and numbers -/
def Builtins.plain : Builtins where
  str
    | .str s => s
    | .int n => PyJson.encodeInt n
    | _ => []
  str_text _ := rfl
  isZero literal := literal = "0.0"

theorem tillConfig_joined : tillConfig.values.joined = tillConfig.values := by
  rw [AgentConfig.joined_values, show tillConfig.joined = tillConfig by decide +kernel]

theorem load_pairedTill : LoadedConfig.load ⟨900, 4300⟩ pairedTill.config = .ok tillConfig.values := by
  have hload := LoadedConfig.load_save (by decide) (AgentConfig.fits_values ⟨900, 4300⟩ tillConfig)
  rw [tillConfig_joined] at hload
  exact hload

theorem pairedTill_secret :
    loadSecret .win32 .working pairedTill.store tillConfig.values.agentId = .ok (some oldSecret.text) := by
  decide +kernel

/-- all is kept when `pair` returns, not between the two writes, and never for an id that is a number -/
theorem repair_all_or_nothing_till :
    AllOrNothing ⟨900, 4300⟩ .plain .ascii .win32 .working []
    (tillReply (.str otherId.text) "https://app.example") pairedTill
        (pairLeaves .plain .ascii .win32 .working [] (tillReply (.str otherId.text) "https://app.example") pairedTill
          (.savingConfig 1000)) ∧
      ¬ AllOrNothing ⟨900, 4300⟩ .plain .ascii .win32 .working [] (tillReply (.str otherId.text) "https://app.example")
        pairedTill (pairLeaves .plain .ascii .win32 .working [] (tillReply (.str otherId.text) "https://app.example")
          pairedTill .secretSaved) ∧
      ¬ AllOrNothing ⟨900, 4300⟩ .plain .ascii .win32 .working [] (tillReply (.int 2) "https://app.example") pairedTill
        (pairLeaves .plain .ascii .win32 .working [] (tillReply (.int 2) "https://app.example") pairedTill
          (.savingConfig 1000)) := by
  have hhost : ∀ agentId, originHost .plain .ascii ((tillReply agentId "https://app.example").webOrigin [])
      = .ok (some (Str.ofString "app.example")) := by
    intro agentId
    show originHost .plain .ascii (.str (Str.ofString "https://app.example")) = _
    decide +kernel
  have htarget : ∀ agentId, agentId = .str otherId.text ∨ agentId = .int 2 →
      (tillReply agentId "https://app.example").target .plain .win32 .working = .windows := by
    rintro _ (rfl | rfl) <;> decide +kernel
  have hraises : ∀ agentId, agentId = .str otherId.text ∨ agentId = .int 2 →
      ¬ (tillReply agentId "https://app.example").SaveRaises .plain .win32 .working := by
    rintro agentId hid (⟨h, -⟩ | ⟨h, -⟩)
    · cases h.symm.trans (htarget agentId hid)
    · cases h.symm.trans (htarget agentId hid)
  have hread : (tillReply (.str otherId.text) "https://app.example").IsRead ⟨900, 4300⟩ := ⟨trivial, trivial⟩
  have hreadNumber : (tillReply (.int 2) "https://app.example").IsRead ⟨900, 4300⟩ := ⟨fun _ => by decide, trivial⟩
  obtain ⟨id, hid, hiff, holder, hholder, hwords⟩ :=
    repair_all_or_nothing (by decide) .plain .ascii .win32 .working .working
    [] hread load_pairedTill pairedTill_secret
  obtain ⟨_, _, hnumber, -⟩ := repair_all_or_nothing (by decide) .plain .ascii .win32 .working .working [] hreadNumber
    load_pairedTill pairedTill_secret
  cases hid
  refine ⟨(hiff _).mpr ?_, fun h => ?_, fun h => ?_⟩
  · simp only [KeepsPairing, hhost]
    refine .inr ⟨hraises _ (.inl rfl), by decide +kernel, otherId.text, rfl, .inr ⟨fun q hq => ?_, .inl ?_⟩⟩
    · rw [htarget _ (.inl rfl)] at hq
      exact absurd hq (Nat.not_lt_zero _)
    · refine ⟨newSecret.text, by decide +kernel, .inr ⟨_, hhost _, ⟨?_, ?_, ?_⟩, rfl⟩⟩
      · exact congrArg Value.str (by decide +kernel)
      · exact congrArg Value.str (by decide +kernel)
      · exact congrArg Value.str (by decide +kernel)
  · -- the old secret was in the place that is written, and in no other
    have hwindows : HasFirst (pairedTill.store.secretAt .win32 .working tillId.text) .windows oldSecret.text :=
      ⟨by decide +kernel, fun q hq => absurd hq (Nat.not_lt_zero _)⟩
    obtain ⟨rfl, -⟩ := hholder.unique hwindows
    have hkeeps := (hwords otherId newSecret rfl rfl rfl).mp ((hiff _).mp h)
    rw [if_neg (by decide +kernel), htarget _ (.inl rfl)] at hkeeps
    rcases hkeeps with h | h | ⟨q, s, hq, hfound, -⟩
    · cases h
    · exact h rfl
    · cases q with
      | windows => exact absurd hq (Nat.lt_irrefl _)
      | fallback | keyring => cases hfound
  · have hkeeps := (hnumber _).mp h
    simp only [KeepsPairing, hhost] at hkeeps
    rcases hkeeps with ⟨h, -⟩ | ⟨-, -, newId, hvalue, -⟩
    · exact hraises _ (.inr rfl) h
    · cases hvalue

/-- the new secret is in the place of the old one, and the configuration is the old one -/
theorem repair_loses_secret :
    (∃ pairing, pairedTill.pairing ⟨900, 4300⟩ .win32 .working = some pairing) ∧
      (pairLeaves .plain .ascii .win32 .working [] (tillReply (.str otherId.text) "https://[") pairedTill
        (.savingConfig 1000)).pairing ⟨900, 4300⟩ .win32 .working = none ∧
      ¬ AllOrNothing ⟨900, 4300⟩ .plain .ascii .win32 .working [] (tillReply (.str otherId.text) "https://[") pairedTill
        (pairLeaves .plain .ascii .win32 .working [] (tillReply (.str otherId.text) "https://[") pairedTill
          (.savingConfig 1000)) := by
  have hold : ∃ pairing, pairedTill.pairing ⟨900, 4300⟩ .win32 .working = some pairing := by
    refine Option.isSome_iff_exists.mp ?_
    decide +kernel
  have hleft : (pairLeaves .plain .ascii .win32 .working [] (tillReply (.str otherId.text) "https://[") pairedTill
      (.savingConfig 1000)).pairing ⟨900, 4300⟩ .win32 .working = none := by
    refine Option.isNone_iff_eq_none.mp ?_
    decide +kernel
  refine ⟨hold, hleft, ?_⟩
  obtain ⟨old, hold⟩ := hold
  rintro (h | ⟨new, -, h⟩)
  · rw [hold, hleft] at h
    cases h
  · rw [hleft] at h
    cases h

end PrintAgent
