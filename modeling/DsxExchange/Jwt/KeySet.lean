import DsxExchange.Jwt.Parser
import DsxExchange.Cells.Pool

/-
  The key set of a JWKS endpoint, as the vendored packages
  `jwkset` and `keyfunc` keep it: it is fetched again at
  intervals and for unknown key ids, while tokens are parsed.

  Key definitions include:
    * `Jwt.JWK`, `Jwt.KeyCell`
    * `Jwt.refresh`, `Jwt.keyRead`, `Jwt.keyReadAll`
    * `Jwt.keyfunc`
    * `Jwt.parseProgram`
    * `Jwt.KeyActor`, `Jwt.keyPool`
    * `Jwt.Offered`, `Jwt.Trusted`

  Key theorems include:
    * `Jwt.run_parseProgram`
    * `Jwt.keyfunc_iff_offered`
    * `Jwt.meets_keyfunc`
    * `Jwt.trusted_of_parsed`
-/

------------------------------------------------------------
-- Stored Keys
------------------------------------------------------------

namespace Jwt

open Cells

/- `jwkset.JWK`, with the parameters that are read. -/
structure JWK where
  kid : String
  alg : String
  key : Key
deriving DecidableEq, Repr

/-
  What changes while the program runs: the set that a request
  for the URL yields, or its error, and the stored keys.
-/
inductive KeyCell where
  | endpoint
  | storage
deriving DecidableEq, Repr

abbrev KeyCell.Contents : KeyCell → Type
| .endpoint => Except String (List JWK)
| .storage => List JWK

abbrev KeyProgram (α : Type) := Program KeyCell.Contents α

/- The end of `refresh`, after the request. -/
def replaceKeys :
    Except String (List JWK) → KeyProgram (Except String Unit)
| .error err => .done (.error err)
| .ok newSet => .store .storage newSet (.done (.ok ()))

/- `refresh` of a storage from HTTP. -/
def refresh : KeyProgram (Except String Unit) :=
  .load .endpoint replaceKeys

def errKeyNotFound (keyID : String) : String :=
  "key not found " ++ Go.quote keyID

/- `KeyRead` of the storage in memory. -/
def findKey
    (keyID : String)
    (keys : List JWK) : Except String JWK :=
  match keys.find? (fun jwk => jwk.kid = keyID) with
  | some jwk => .ok jwk
  | none => .error (errKeyNotFound keyID)

/- `KeyRead` of the client, after it has fetched the set. -/
def readAgain
    (keyID : String) :
    Except String Unit → KeyProgram (Except String JWK)
| .error _ => .done (.error (errKeyNotFound keyID))
| .ok () => .load .storage (fun keys => .done (findKey keyID keys))

/-
  `KeyRead` of the client for one URL. An unknown id fetches
  the set again, as far as the rate limiter lets it.
-/
def readOrFetch
    (limiter : Except String Unit)
    (keyID : String)
    (keys : List JWK) : KeyProgram (Except String JWK) :=
  match findKey keyID keys with
  | .ok jwk => .done (.ok jwk)
  | .error _ =>
      match limiter with
      | .error err =>
          .done (.error
            ("failed to wait for JWK Set refresh rate " ++
              "limiter due to error: " ++ err))
      | .ok () => refresh.bind (readAgain keyID)

def keyRead
    (limiter : Except String Unit)
    (keyID : String) : KeyProgram (Except String JWK) :=
  .load .storage (readOrFetch limiter keyID)

/- `KeyReadAll`. -/
def keyReadAll : KeyProgram (List JWK) :=
  .load .storage (fun keys => .done keys)

/- `key.(publicKeyer)`: the public half of a private key. -/
def publicKey : Key → Key
| .privateKey publicHalf => publicHalf
| key => key

def errKeyfunc : String := "failed keyfunc"

/- The key of a JWK, if it may be used with an algorithm. -/
def keyForAlg (alg : String) :
    Except String JWK → Except String KeyAnswer
| .error err =>
    .error
      (err ++ "\n" ++ errKeyfunc ++
        ": could not read JWK from storage")
| .ok jwk =>
    if jwk.alg ≠ "" ∧ jwk.alg ≠ alg then
      .error
        (errKeyfunc ++ ": JWK \"alg\" parameter value " ++
          Go.quote jwk.alg ++
          " does not match token \"alg\" parameter value " ++
          Go.quote alg)
    else
      .ok (.one (publicKey jwk.key))

/- `Keyfunc`. -/
def keyfunc
    (limiter : Except String Unit)
    (header : Header) : KeyProgram (Except String KeyAnswer) :=
  match header.kid with
  | none =>
      keyReadAll.map (fun keys =>
        .ok (.set (keys.map (fun jwk => publicKey jwk.key))))
  | some .other =>
      .done (.error
        (errKeyfunc ++
          ": could not convert kid in JWT header to string"))
  | some (.text kid) =>
      match header.alg with
      | none =>
          .done (.error
            (errKeyfunc ++
              ": could not find alg in JWT header"))
      | some .other =>
          .done (.error
            (errKeyfunc ++
              ": the JWT header did not contain the \"alg\" " ++
              "parameter, which is required by RFC 7515 " ++
              "section 4.1.1"))
      | some (.text alg) =>
          (keyRead limiter kid).map (keyForAlg alg)

end Jwt

------------------------------------------------------------
-- Parsing With Stored Keys
------------------------------------------------------------

namespace Jwt

open Cells

variable {γ : Type} [Claims γ]

/- What a call of `ParseWithClaims` is given. -/
structure ParseCall where
  limiter : Except String Unit
  now : ℤ
  tokenString : String

/- `ParseWithClaims` with the stored keys. -/
def parseProgram
    (p : Parser)
    (decoders : Decoders γ)
    (crypto : Crypto)
    (call : ParseCall) : KeyProgram (Except String (Token γ)) :=
  match p.beforeKey decoders call.tokenString with
  | .error err => .done (.error err)
  | .ok before =>
      (keyfunc call.limiter before.1.header).map
        (p.afterKey crypto call.now call.tokenString before)

theorem parseProgram_of_beforeKey
    {p : Parser}
    {decoders : Decoders γ}
    {crypto : Crypto}
    {call : ParseCall}
    {before : Unverified γ × List UInt8}
    (hBefore :
      p.beforeKey decoders call.tokenString = .ok before) :
    parseProgram p decoders crypto call =
      (keyfunc call.limiter before.1.header).map
        (p.afterKey crypto call.now call.tokenString
          before) := by
  unfold parseProgram
  rw [hBefore]

/- Alone, it is `ParseWithClaims` with the keys it reads. -/
theorem run_parseProgram
    (p : Parser)
    (decoders : Decoders γ)
    (crypto : Crypto)
    (call : ParseCall)
    (memory : Memory KeyCell.Contents) :
    ((parseProgram p decoders crypto call).run memory).1 =
      p.parseWithClaims decoders crypto call.now
        (fun header =>
          ((keyfunc call.limiter header).run memory).1)
        call.tokenString := by
  unfold parseProgram Parser.parseWithClaims
  cases p.beforeKey decoders call.tokenString with
  | error err => rfl
  | ok before =>
      simp only [Program.map, Program.run_bind]
      rfl

/- What can take a step while tokens are parsed. -/
inductive KeyActor (τ σ ρ : Type) where
  | refresh (t : τ)
  | publish (s : σ)
  | parse (r : ρ)
deriving DecidableEq

abbrev KeyResult
    (γ : Type)
    {τ σ ρ : Type} : KeyActor τ σ ρ → Type
| .refresh _ => Except String Unit
| .publish _ => Unit
| .parse _ => Except String (Token γ)

/-
  One thread for each refresh that the ticker starts, one for
  each change of what the endpoint serves, and one for each
  token that is parsed.
-/
def keyPool
    {τ σ ρ : Type}
    (p : Parser)
    (decoders : Decoders γ)
    (crypto : Crypto)
    (memory : Memory KeyCell.Contents)
    (publications : σ → Except String (List JWK))
    (calls : ρ → ParseCall) :
    Pool KeyCell.Contents
      (KeyResult γ (τ := τ) (σ := σ) (ρ := ρ)) where
  memory := memory
  threads := fun t =>
    match t with
    | .refresh _ => refresh
    | .publish s =>
        .store .endpoint (publications s) (.done ())
    | .parse r => parseProgram p decoders crypto (calls r)

end Jwt

------------------------------------------------------------
-- Keys That Are Found
------------------------------------------------------------

namespace Jwt

open Cells

/-
  The JWK that is read for a key id by a call that runs alone:
  the first one stored with it, or, when there is none, the
  first one of the set that is fetched.
-/
inductive Finds
    (limiter : Except String Unit)
    (memory : Memory KeyCell.Contents)
    (keyID : String) : JWK → Prop
| stored {jwk}
    (hFound : findKey keyID (memory .storage) = .ok jwk) :
    Finds limiter memory keyID jwk
| fetched {jwk newSet err}
    (hUnknown :
      findKey keyID (memory .storage) = .error err)
    (hLimiter : limiter = .ok ())
    (hServed : memory .endpoint = .ok newSet)
    (hFound : findKey keyID newSet = .ok jwk) :
    Finds limiter memory keyID jwk

/-
  The keys that such a call tries for a header: all, or the
  one with the key id, if its own algorithm is that of the
  header or it has none.
-/
inductive Offered
    (limiter : Except String Unit)
    (memory : Memory KeyCell.Contents)
    (header : Header) : Key → Prop
| any {jwk : JWK}
    (hKid : header.kid = none)
    (hStored :
      jwk ∈ (memory .storage : KeyCell.storage.Contents)) :
    Offered limiter memory header (publicKey jwk.key)
| named {jwk keyID alg}
    (hKid : header.kid = some (.text keyID))
    (hAlg : header.alg = some (.text alg))
    (hFinds : Finds limiter memory keyID jwk)
    (hFits : jwk.alg = "" ∨ jwk.alg = alg) :
    Offered limiter memory header (publicKey jwk.key)

variable {limiter : Except String Unit}
variable {memory : Memory KeyCell.Contents}

theorem keyRead_ok_iff
    {keyID : String}
    {jwk : JWK} :
    ((keyRead limiter keyID).run memory).1 = .ok jwk ↔
      Finds limiter memory keyID jwk := by
  have hRun :
      ((keyRead limiter keyID).run memory).1 =
        ((readOrFetch limiter keyID (memory .storage)).run
          memory).1 :=
    rfl
  rw [hRun]
  unfold readOrFetch
  cases hFound : findKey keyID (memory .storage) with
  | ok found =>
      constructor
      · intro hRead
        cases hRead
        exact .stored hFound
      · intro hFinds
        cases hFinds with
        | stored hSame =>
            rw [hFound] at hSame
            exact hSame
        | fetched hUnknown _ _ _ =>
            rw [hFound] at hUnknown
            cases hUnknown
  | error err =>
      cases limiter with
      | error wait =>
          constructor
          · intro hRead
            cases hRead
          · intro hFinds
            cases hFinds with
            | stored hSame =>
                rw [hFound] at hSame
                cases hSame
            | fetched _ hLimiter _ _ => cases hLimiter
      | ok done =>
          dsimp only
          rw [Program.run_bind]
          cases hServed : memory .endpoint with
          | error fault =>
              simp only [refresh, Program.run, replaceKeys,
                hServed, readAgain]
              constructor
              · intro hRead
                cases hRead
              · intro hFinds
                cases hFinds with
                | stored hSame =>
                    rw [hFound] at hSame
                    cases hSame
                | fetched _ _ hOther _ =>
                    rw [hServed] at hOther
                    cases hOther
          | ok newSet =>
              simp only [refresh, Program.run, replaceKeys,
                hServed, readAgain, Function.update_self]
              constructor
              · intro hRead
                exact .fetched hFound rfl hServed hRead
              · intro hFinds
                cases hFinds with
                | stored hSame =>
                    rw [hFound] at hSame
                    cases hSame
                | fetched _ _ hOther hLater =>
                    rw [hServed] at hOther
                    cases hOther
                    exact hLater

theorem keyForAlg_ok_iff
    {alg : String}
    {read : Except String JWK}
    {answer : KeyAnswer} :
    keyForAlg alg read = .ok answer ↔
      ∃ jwk,
        read = .ok jwk ∧ (jwk.alg = "" ∨ jwk.alg = alg) ∧
          answer = .one (publicKey jwk.key) := by
  cases read with
  | error err => simp [keyForAlg]
  | ok jwk =>
      have hFits :
          ¬ (jwk.alg ≠ "" ∧ jwk.alg ≠ alg) ↔
            jwk.alg = "" ∨ jwk.alg = alg := by
        tauto
      simp only [keyForAlg]
      by_cases hOwn : jwk.alg ≠ "" ∧ jwk.alg ≠ alg
      · rw [if_pos hOwn]
        constructor
        · intro hAnswer
          cases hAnswer
        · intro hRead
          rcases hRead with ⟨other, hEq, hOther, _⟩
          cases hEq
          exact absurd hOwn (hFits.mpr hOther)
      · rw [if_neg hOwn]
        constructor
        · intro hAnswer
          cases hAnswer
          exact ⟨jwk, rfl, hFits.mp hOwn, rfl⟩
        · intro hRead
          rcases hRead with ⟨other, hEq, _, hAnswer⟩
          cases hEq
          rw [hAnswer]

/- The keys that are tried are those that are offered. -/
theorem keyfunc_iff_offered
    {header : Header}
    {key : Key} :
    (∃ answer,
        ((keyfunc limiter header).run memory).1 =
            .ok answer ∧
          key ∈ answer.keys) ↔
      Offered limiter memory header key := by
  constructor
  · intro hAnswer
    rcases hAnswer with ⟨answer, hRun, hKey⟩
    unfold keyfunc at hRun
    cases hKid : header.kid with
    | none =>
        simp only [hKid, Program.map, Program.run_bind] at hRun
        cases hRun
        rcases List.mem_map.mp hKey with ⟨jwk, hMem, hEq⟩
        rw [← hEq]
        exact .any hKid hMem
    | some value =>
        cases value with
        | other => simp [hKid, Program.run] at hRun
        | text keyID =>
            cases hAlg : header.alg with
            | none => simp [hKid, hAlg, Program.run] at hRun
            | some value =>
                cases value with
                | other =>
                    simp [hKid, hAlg, Program.run] at hRun
                | text alg =>
                    simp only [hKid, hAlg, Program.map,
                      Program.run_bind, Program.run] at hRun
                    rcases keyForAlg_ok_iff.mp hRun with
                      ⟨jwk, hRead, hFits, hEq⟩
                    rw [hEq] at hKey
                    rw [List.mem_singleton.mp hKey]
                    exact .named hKid hAlg
                      (keyRead_ok_iff.mp hRead) hFits
  · intro hOffered
    cases hOffered with
    | @any jwk hKid hStored =>
        refine
          ⟨.set
            ((memory .storage : List JWK).map
              (fun jwk => publicKey jwk.key)), ?_,
            List.mem_map_of_mem hStored⟩
        simp only [keyfunc, hKid, Program.map,
          Program.run_bind]
        rfl
    | named hKid hAlg hFinds hFits =>
        refine ⟨.one _, ?_, List.mem_singleton.mpr rfl⟩
        simp only [keyfunc, hKid, hAlg, Program.map,
          Program.run_bind, Program.run]
        exact keyForAlg_ok_iff.mpr
          ⟨_, keyRead_ok_iff.mpr hFinds, hFits, rfl⟩

end Jwt

------------------------------------------------------------
-- Keys That Can Be Trusted
------------------------------------------------------------

namespace Jwt

open Cells

/- Both cells hold keys of one kind only. -/
def Holds (Known : JWK → Prop) :
    ∀ cell : KeyCell, cell.Contents → Prop
| .endpoint => fun fetched =>
    ∀ newSet : List JWK,
      (fetched : Except String (List JWK)) = .ok newSet →
        ∀ jwk ∈ newSet, Known jwk
| .storage => fun keys =>
    ∀ jwk ∈ (keys : List JWK), Known jwk

/-
  A JWK of that kind may verify a token with the header: it
  has the key id that the header names, and then its own
  algorithm, if it has one, is the one of the header.
-/
structure Serves
    (Known : JWK → Prop)
    (header : Header)
    (jwk : JWK) : Prop where
  known : Known jwk
  kid :
    header.kid = none ∨ header.kid = some (.text jwk.kid)
  alg :
    header.kid ≠ none →
      jwk.alg ≠ "" → header.alg = some (.text jwk.alg)

/- All keys of an answer are those of such JWKs. -/
def AnswersFrom
    (Known : JWK → Prop)
    (header : Header) :
    Except String KeyAnswer → Prop
| .error _ => True
| .ok answer =>
    ∀ key ∈ answer.keys,
      ∃ jwk, Serves Known header jwk ∧ key = publicKey jwk.key

variable {Known : JWK → Prop}

theorem meets_refresh :
    refresh.Meets (Holds Known) (fun _ => True) := by
  intro fetched hFetched
  cases fetched with
  | error err => trivial
  | ok newSet => exact ⟨hFetched newSet rfl, trivial⟩

theorem known_of_findKey
    {keys : List JWK}
    (hKeys : ∀ jwk ∈ keys, Known jwk)
    {keyID : String}
    {jwk : JWK}
    (hFound : findKey keyID keys = .ok jwk) :
    Known jwk ∧ jwk.kid = keyID := by
  unfold findKey at hFound
  split at hFound
  · rename_i found hFind
    cases hFound
    refine ⟨hKeys jwk (List.mem_of_find?_eq_some hFind), ?_⟩
    simpa using List.find?_some hFind
  · cases hFound

/- A key that is read has the id that was asked for. -/
def ReadsKnown
    (Known : JWK → Prop)
    (keyID : String)
    (read : Except String JWK) : Prop :=
  ∀ jwk, read = .ok jwk → Known jwk ∧ jwk.kid = keyID

theorem readsKnown_error
    (keyID err : String) :
    ReadsKnown Known keyID (.error err) := by
  intro jwk hRead
  cases hRead

theorem meets_keyRead
    (limiter : Except String Unit)
    (keyID : String) :
    (keyRead limiter keyID).Meets (Holds Known)
      (ReadsKnown Known keyID) := by
  intro keys hKeys
  unfold readOrFetch
  cases hFound : findKey keyID keys with
  | ok jwk =>
      intro other hRead
      cases hRead
      exact known_of_findKey hKeys hFound
  | error err =>
      cases limiter with
      | error err => exact readsKnown_error keyID _
      | ok done =>
          apply meets_refresh.bind
          intro refreshed _
          cases refreshed with
          | error err => exact readsKnown_error keyID _
          | ok done =>
              intro later hLater jwk hRead
              exact known_of_findKey hLater hRead

/- Keys are found for the header they are asked for. -/
theorem meets_keyfunc
    (limiter : Except String Unit)
    (header : Header) :
    (keyfunc limiter header).Meets (Holds Known)
      (AnswersFrom Known header) := by
  unfold keyfunc
  cases hKid : header.kid with
  | none =>
      intro keys hKeys key hKey
      rcases List.mem_map.mp hKey with ⟨jwk, hMem, hEq⟩
      exact ⟨jwk,
        { known := hKeys jwk hMem
          kid := .inl hKid
          alg := fun hSome => absurd hKid hSome }, hEq.symm⟩
  | some value =>
      cases value with
      | other => trivial
      | text kid =>
          cases hAlg : header.alg with
          | none => trivial
          | some value =>
              cases value with
              | other => trivial
              | text alg =>
                  apply (meets_keyRead limiter kid).bind
                  intro read hRead
                  cases read with
                  | error err => trivial
                  | ok jwk =>
                      rcases hRead jwk rfl with
                        ⟨hKnown, hSame⟩
                      simp only [Program.Meets, keyForAlg]
                      split
                      · trivial
                      · rename_i hFits
                        intro key hKey
                        refine ⟨jwk,
                          { known := hKnown
                            kid := .inr (by rw [hKid, hSame])
                            alg := ?_ },
                          List.mem_singleton.mp hKey⟩
                        intro _ hOwn
                        rw [hAlg]
                        by_contra hOther
                        exact hFits
                          ⟨hOwn, fun hEq =>
                            hOther (by rw [hEq])⟩

end Jwt

------------------------------------------------------------
-- Tokens Of Known Keys
------------------------------------------------------------

namespace Jwt

open Cells

variable {γ : Type} [Claims γ]

/-
  A token that has been accepted: a known key that may verify
  it does so, its method is a listed one, and its claims pass
  every check.
-/
structure Trusted
    (Known : JWK → Prop)
    (p : Parser)
    (decoders : Decoders γ)
    (crypto : Crypto)
    (call : ParseCall)
    (token : Token γ) : Prop where
  raw : token.raw = call.tokenString
  signed :
    ∃ parts jwk,
      Parser.Decodes decoders parts token ∧
        Serves Known token.header jwk ∧
        token.method.Accepts crypto
          (Go.join [parts.1, parts.2.1] '.') token.signature
          (publicKey jwk.key)
  listed :
    ∀ methods,
      p.validMethods = some methods →
        token.method.alg ∈ methods
  allowed :
    p.skipClaimsValidation = false →
      p.validator.validate call.now token.claims = .ok ()

variable {Known : JWK → Prop}
variable {p : Parser} {decoders : Decoders γ}
variable {crypto : Crypto}

theorem meets_parseProgram (call : ParseCall) :
    (parseProgram p decoders crypto call).Meets (Holds Known)
      (fun result =>
        ∀ token,
          result = .ok token →
            Trusted Known p decoders crypto call token) := by
  unfold parseProgram
  cases hBefore : p.beforeKey decoders call.tokenString with
  | error err =>
      intro token hToken
      cases hToken
  | ok before =>
      rcases before with ⟨found, signature⟩
      rcases Parser.beforeKey_ok_iff.mp hBefore with
        ⟨hFound, hListed, hSignature⟩
      rcases Parser.parseUnverified_ok_iff.mp hFound with
        ⟨hParts, hHeader, hClaims, hAlg⟩
      apply (meets_keyfunc call.limiter found.header).bind
      intro got hGot token hToken
      rcases Parser.afterKey_ok_iff.mp hToken with
        ⟨⟨answer, hAnswer, key, hKey, hAccepts⟩, hAllowed,
          hEq⟩
      rw [hAnswer] at hGot
      rcases hGot key hKey with ⟨jwk, hServes, hPublic⟩
      rw [hPublic] at hAccepts
      rw [hEq]
      exact
        { raw := rfl
          signed :=
            ⟨found.parts, jwk,
              { segments :=
                  splitToken_eq_some_iff.mp hParts
                header := hHeader
                claims := hClaims
                signature := hSignature
                alg := hAlg },
              hServes, hAccepts⟩
          listed := hListed
          allowed := hAllowed }

variable {τ σ ρ : Type}
variable [DecidableEq τ] [DecidableEq σ] [DecidableEq ρ]
variable {memory : Memory KeyCell.Contents}
variable {publications : σ → Except String (List JWK)}
variable {calls : ρ → ParseCall}

/-
  However refreshes, publications and parses interleave, a
  token is accepted only for a key that was stored at first
  or that the endpoint has served.
-/
theorem trusted_of_parsed
    (hMemory : ∀ cell, Holds Known cell (memory cell))
    (hPublished :
      ∀ s, Holds Known .endpoint (publications s))
    {schedule : List (KeyActor τ σ ρ)}
    {r : ρ}
    {token : Token γ}
    (hParsed :
      ((keyPool p decoders crypto memory publications
          calls).run schedule).threads (.parse r) =
        .done (.ok token)) :
    Trusted Known p decoders crypto (calls r) token := by
  have hMeets :
      (keyPool (τ := τ) p decoders crypto memory publications
          calls).Meets (Holds Known)
        (fun t =>
          match t with
          | .refresh _ => fun _ => True
          | .publish _ => fun _ => True
          | .parse r => fun result =>
              ∀ token,
                result = .ok token →
                  Trusted Known p decoders crypto (calls r)
                    token) := by
    refine ⟨hMemory, fun t => ?_⟩
    cases t with
    | refresh t => exact meets_refresh
    | publish s => exact ⟨hPublished s, trivial⟩
    | parse r => exact meets_parseProgram (calls r)
  exact Pool.post_of_done hMeets hParsed token rfl

end Jwt
