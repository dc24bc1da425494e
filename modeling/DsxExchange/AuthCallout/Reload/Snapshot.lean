import DsxExchange.Cells.Pool
import DsxExchange.AuthCallout.ScopeInvariant

/-
  One reload next to any number of requests.

  The reload and the requests are threads that share the
  pointers of the manager, and every interleaving of their
  loads and stores is a schedule.

  Key definitions include:
    * `AuthCallout.Call`, `AuthCallout.answer`
    * `AuthCallout.reloadPool`
    * `AuthCallout.TakesEffectAtOnce`

  Key theorems include:
    * `AuthCallout.memory_reloadPool`
    * `AuthCallout.answer_before_or_after`
    * `AuthCallout.not_onlyOld_of_stored_no_later`
-/

------------------------------------------------------------
-- Requests Next To A Reload
------------------------------------------------------------

namespace AuthCallout

open Cells Auth Config

/- A request, and what the libraries compute for it. -/
structure Call where
  libs : Libraries
  req : AuthorizationRequest

/- How the service answers a call. -/
def answer
    (issuer : Issuer)
    (authenticators : List Authenticator)
    (call : Call) : Lookup UserJWT :=
  handleAuthRequest call.libs issuer authenticators call.req

/- What a thread returns: the reload, or one of the calls. -/
abbrev ReloadResult {ρ : Type} : Option ρ → Type
| none => Except Go.Fault Unit
| some _ => Except Go.Fault UserJWT

/- One execution of `load`, and one thread for each call. -/
def reloadPool
    {ρ : Type}
    (env : Go.Env)
    (order : Go.Iteration)
    (w : World)
    (issuer : Issuer)
    (authenticators : List Authenticator)
    (calls : ρ → Call) :
    Pool Cell.Contents (ReloadResult (ρ := ρ)) where
  memory := w
  threads := fun t =>
    match t with
    | none => load env order
    | some r =>
        (answer issuer authenticators (calls r)).toProgram

/- The world after the reload alone. -/
def reloaded
    (env : Go.Env)
    (order : Go.Iteration)
    (w : World) : World :=
  ((load env order).run w).2

variable {ρ : Type}
variable {env : Go.Env} {order : Go.Iteration} {w : World}
variable {issuer : Issuer}
variable {authenticators : List Authenticator}
variable {calls : ρ → Call}

/- A call reads one pointer, if it reads any. -/
theorem exists_loadsOnly_answer
    (issuer : Issuer)
    (authenticators : List Authenticator)
    (call : Call) :
    ∃ cell,
      (answer issuer authenticators call).LoadsOnly cell := by
  unfold answer
  cases hFirst : firstAccepting authenticators call.req with
  | none =>
      rw [handleAuthRequest_of_none call.libs issuer hFirst]
      exact ⟨.configFile, loadsOnly_fail _ _⟩
  | some a =>
      exact ⟨a.cell,
        loadsOnly_handleAuthRequest call.libs issuer
          hFirst⟩

theorem reads_reloadPool
    (t : Option ρ)
    (hCall : t ≠ none) :
    (reloadPool env order w issuer authenticators
      calls).Reads t := by
  cases t with
  | none => exact absurd rfl hCall
  | some r => exact ⟨_, rfl⟩

variable [DecidableEq ρ]

/-
  In every schedule a pointer is old until the reload has
  stored it, and new from then on.
-/
theorem memory_reloadPool
    (schedule : List (Option ρ))
    (cell : Cell) :
    ((reloadPool env order w issuer authenticators
        calls).run schedule).memory cell =
      if storeOrder.idxOf cell < Pool.turns none schedule - 1
      then
        reloaded env order w cell
      else
        w cell := by
  have hWriter :
      (reloadPool env order w issuer authenticators
          calls).threads none =
        .readThenStore .configFile (loadStores env order)
          (loadResult env order) :=
    load_eq_readThenStore env order
  have hMemory :=
    Pool.memory_of_readThenStore hWriter reads_reloadPool
      schedule
  have hReloaded :
      reloaded env order w =
        writeAll w
          (loadStores env order (w .configFile)) := by
    rw [reloaded, load_eq_readThenStore,
      Program.run_readThenStore]
  rw [hMemory, hReloaded]
  change writeAll w
    ((loadStores env order (w .configFile)).take _) cell = _
  rcases loadStores_cases env order (w .configFile) with
    ⟨hNone, _⟩ | ⟨config, _, _, hStores⟩
  · rw [hNone]
    simp [writeAll]
  · rw [hStores]
    rw [writeAll_take (nodup_storesOf _), storesOf_fst]

end AuthCallout

------------------------------------------------------------
-- Each Request Sees One Configuration
------------------------------------------------------------

namespace AuthCallout

open Cells Auth Config

variable {ρ : Type} [DecidableEq ρ]
variable {env : Go.Env} {order : Go.Iteration} {w : World}
variable {issuer : Issuer}
variable {authenticators : List Authenticator}
variable {calls : ρ → Call}

/-
  A call that has finished is answered as it would be before
  the reload or after it, whatever the interleaving.
-/
theorem answer_before_or_after
    {schedule : List (Option ρ)}
    {r : ρ}
    {result : Except Go.Fault UserJWT}
    (hDone :
      ((reloadPool env order w issuer authenticators
          calls).run schedule).threads (some r) =
        .done result) :
    result =
        (answer issuer authenticators (calls r)).eval w ∨
      result =
        (answer issuer authenticators (calls r)).eval
          (reloaded env order w) := by
  rcases exists_loadsOnly_answer issuer authenticators
      (calls r) with
    ⟨cell, hOnly⟩
  rcases Pool.exists_read_of_done hOnly rfl hDone with
    ⟨early, late, _, hResult⟩
  have hCell :
      ((reloadPool env order w issuer authenticators
        calls).run early).memory cell = _ :=
    memory_reloadPool early cell
  rw [hResult]
  split at hCell
  · exact Or.inr (hOnly.eval_congr hCell)
  · exact Or.inl (hOnly.eval_congr hCell)

end AuthCallout

------------------------------------------------------------
-- How A Reload Takes Effect
------------------------------------------------------------

namespace AuthCallout

open Cells Auth Config

section

variable {ρ : Type}

/- An answer that the new configuration alone gives. -/
def OnlyNew
    (env : Go.Env)
    (order : Go.Iteration)
    (w : World)
    (query : Lookup UserJWT)
    (result : Except Go.Fault UserJWT) : Prop :=
  result = query.eval (reloaded env order w) ∧
    result ≠ query.eval w

/- An answer that the old configuration alone gives. -/
def OnlyOld
    (env : Go.Env)
    (order : Go.Iteration)
    (w : World)
    (query : Lookup UserJWT)
    (result : Except Go.Fault UserJWT) : Prop :=
  result = query.eval w ∧
    result ≠ query.eval (reloaded env order w)

/-
  Once one call has finished with an answer of the new
  configuration alone, no call that starts afterwards gets
  one of the old configuration alone.
-/
def TakesEffectAtOnce
    [DecidableEq ρ]
    (env : Go.Env)
    (order : Go.Iteration)
    (w : World)
    (issuer : Issuer)
    (authenticators : List Authenticator)
    (calls : ρ → Call) : Prop :=
  ∀ (early late : List (Option ρ)) (a b : ρ)
    (first second : Except Go.Fault UserJWT),
      ((reloadPool env order w issuer authenticators
          calls).run early).threads (some a) =
        .done first →
      OnlyNew env order w
          (answer issuer authenticators (calls a)) first →
      some b ∉ early →
      ((reloadPool env order w issuer authenticators
          calls).run (early ++ late)).threads (some b) =
        .done second →
      ¬ OnlyOld env order w
          (answer issuer authenticators (calls b)) second

end

variable {ρ : Type} [DecidableEq ρ]
variable {env : Go.Env} {order : Go.Iteration} {w : World}
variable {issuer : Issuer}
variable {authenticators : List Authenticator}
variable {calls : ρ → Call}

/- A call with a new answer has read a stored pointer. -/
theorem stored_of_onlyNew
    {schedule : List (Option ρ)}
    {r : ρ}
    {x : Authenticator}
    {result : Except Go.Fault UserJWT}
    (hFirst :
      firstAccepting authenticators (calls r).req = some x)
    (hDone :
      ((reloadPool env order w issuer authenticators
          calls).run schedule).threads (some r) =
        .done result)
    (hNew :
      OnlyNew env order w
        (answer issuer authenticators (calls r)) result) :
    storeOrder.idxOf x.cell <
      Pool.turns none schedule - 1 := by
  have hOnly :
      (answer issuer authenticators (calls r)).LoadsOnly
        x.cell :=
    loadsOnly_handleAuthRequest (calls r).libs issuer hFirst
  rcases Pool.exists_read_of_done hOnly rfl hDone with
    ⟨early, late, rfl, hResult⟩
  have hCell :
      ((reloadPool env order w issuer authenticators
        calls).run early).memory x.cell = _ :=
    memory_reloadPool early x.cell
  rw [Pool.turns_append]
  split at hCell
  · omega
  · -- It would have read the old pointer.
    rw [hOnly.eval_congr hCell] at hResult
    exact absurd hResult hNew.2

/-
  A call that starts after the pointer it reads is stored is
  answered by the new configuration.
-/
theorem answer_of_stored
    {early late : List (Option ρ)}
    {r : ρ}
    {y : Authenticator}
    {result : Except Go.Fault UserJWT}
    (hSecond :
      firstAccepting authenticators (calls r).req = some y)
    (hStored :
      storeOrder.idxOf y.cell < Pool.turns none early - 1)
    (hStart : some r ∉ early)
    (hDone :
      ((reloadPool env order w issuer authenticators
          calls).run (early ++ late)).threads (some r) =
        .done result) :
    result =
      (answer issuer authenticators (calls r)).eval
        (reloaded env order w) := by
  have hOnly :
      (answer issuer authenticators (calls r)).LoadsOnly
        y.cell :=
    loadsOnly_handleAuthRequest (calls r).libs issuer
      hSecond
  have hWaiting :
      ((reloadPool env order w issuer authenticators
          calls).run early).threads (some r) =
        (answer issuer authenticators
          (calls r)).toProgram :=
    Pool.run_threads_of_not_mem _ hStart
  rw [Pool.run_append] at hDone
  rcases Pool.exists_read_of_done hOnly hWaiting hDone with
    ⟨between, rest, _, hResult⟩
  rw [← Pool.run_append] at hResult
  have hCell :
      ((reloadPool env order w issuer authenticators
        calls).run (early ++ between)).memory y.cell = _ :=
    memory_reloadPool (early ++ between) y.cell
  rw [if_pos (by rw [Pool.turns_append]; omega)] at hCell
  rw [hResult, hOnly.eval_congr hCell]

/-
  The reload takes effect for the methods one after the
  other. Once a call has an answer of the new configuration
  alone, so have all later calls of the methods whose
  pointers are stored no later than its own.
-/
theorem not_onlyOld_of_stored_no_later
    {early late : List (Option ρ)}
    {a b : ρ}
    {x y : Authenticator}
    {first second : Except Go.Fault UserJWT}
    (hMethodFirst :
      firstAccepting authenticators (calls a).req = some x)
    (hMethodSecond :
      firstAccepting authenticators (calls b).req = some y)
    (hOrder :
      storeOrder.idxOf y.cell ≤ storeOrder.idxOf x.cell)
    (hFirst :
      ((reloadPool env order w issuer authenticators
          calls).run early).threads (some a) =
        .done first)
    (hNew :
      OnlyNew env order w
        (answer issuer authenticators (calls a)) first)
    (hStart : some b ∉ early)
    (hSecond :
      ((reloadPool env order w issuer authenticators
          calls).run (early ++ late)).threads (some b) =
        .done second) :
    ¬ OnlyOld env order w
        (answer issuer authenticators (calls b)) second := by
  have hStored := stored_of_onlyNew hMethodFirst hFirst hNew
  have hAnswer :=
    answer_of_stored hMethodSecond
      (Nat.lt_of_le_of_lt hOrder hStored) hStart hSecond
  intro hOld
  exact hOld.2 hAnswer

/- A file that serves anonymous clients only. -/
def guestsConfig : PermissionsConfig where
  oauth2 := ∅
  mtls := ∅
  nkey := ∅
  noauth := some ⟨"guests", .zero⟩

/- The user file has been loaded and is then replaced. -/
def replacedWorld : World :=
  Function.update
    (reloads [⟨.decoded uiConfig, clientEnv, .listed⟩])
    .configFile (.decoded guestsConfig)

/- A client without credentials. -/
def anonymousRequest : AuthorizationRequest where
  userNkey := passwordRequest.userNkey
  clientInformation := ⟨""⟩
  connectOptions := ⟨"", "", "", "", ""⟩
  tls := none

/- The token issued for a profile by the plain issuer. -/
def plainToken (profile : UserProfile) : UserJWT where
  claims :=
    { subject := passwordRequest.userNkey
      name := profile.name
      audience := profile.account
      permissions := profile.permissions
      subs := -1
      data := -1
      payload := -1 }
  encoded := profile.name

/- The user and an anonymous client. -/
def userAndGuest : Bool → Call
| true =>
    ⟨tokenLibraries ⟨"alice", "mqtt", [], "ui"⟩,
      tokenRequest⟩
| false => ⟨offlineLibraries, anonymousRequest⟩

/- Two anonymous clients. -/
def twoGuests : Bool → Call :=
  fun _ => ⟨offlineLibraries, anonymousRequest⟩

/- A guest that is served in the middle of the reload. -/
theorem guest_before_or_after :
    .ok (plainToken ⟨"anonymous", "guests", .zero⟩) =
        (answer plainIssuer
          [.oauth2 oauth2Client, .nkey, .noauth]
          (twoGuests false)).eval replacedWorld ∨
      .ok (plainToken ⟨"anonymous", "guests", .zero⟩) =
        (answer plainIssuer
          [.oauth2 oauth2Client, .nkey, .noauth]
          (twoGuests false)).eval
            (reloaded clientEnv .listed replacedWorld) :=
  @answer_before_or_after Bool _ clientEnv .listed
    replacedWorld plainIssuer
    [.oauth2 oauth2Client, .nkey, .noauth] twoGuests
    [none, none, some false] false _ rfl

/- A guest that follows a guest is served as well. -/
theorem guest_after_guest :
    ¬ OnlyOld clientEnv .listed replacedWorld
        (answer plainIssuer
          [.oauth2 oauth2Client, .nkey, .noauth]
          (twoGuests true))
        (.ok (plainToken ⟨"anonymous", "guests", .zero⟩)) :=
  @not_onlyOld_of_stored_no_later Bool _ clientEnv .listed
    replacedWorld plainIssuer
    [.oauth2 oauth2Client, .nkey, .noauth] twoGuests
    [none, none, some false] [some true] false true
    .noauth .noauth
    (.ok (plainToken ⟨"anonymous", "guests", .zero⟩))
    _ rfl rfl (Nat.le_refl _) rfl ⟨rfl, by decide⟩
    (by decide) rfl

/-
  A guest is served, and the user that the new file has
  dropped is still accepted afterwards.
-/
theorem not_takesEffectAtOnce_userAndGuest :
    ¬ TakesEffectAtOnce clientEnv .listed replacedWorld
        plainIssuer [.oauth2 oauth2Client, .nkey, .noauth]
        userAndGuest := by
  intro hOnce
  exact hOnce [none, none, some false] [some true] false
    true (.ok (plainToken ⟨"anonymous", "guests", .zero⟩))
    (.ok (plainToken ⟨"ui", "A", .zero⟩)) rfl
    ⟨rfl, by decide⟩ (by decide) rfl ⟨rfl, by decide⟩

end AuthCallout
