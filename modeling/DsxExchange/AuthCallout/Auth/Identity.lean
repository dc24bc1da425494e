import DsxExchange.AuthCallout.Auth.MTLS

/-
  Which field of a certificate its identity was taken from,
  and when two certificates with one identity have it from
  the same field.

  Key definitions include:
    * `AuthCallout.Auth.CertificateField`
    * `AuthCallout.Auth.Certificate.Leads`
    * `AuthCallout.Auth.Distinguishes`
    * `AuthCallout.Auth.Impersonates`

  Key theorems include:
    * `AuthCallout.Auth.extractIdentity_of_leads`
    * `AuthCallout.Auth.distinguishes_iff`
-/

------------------------------------------------------------
-- Certificate Fields
------------------------------------------------------------

namespace AuthCallout

namespace Auth

/- The fields that `extractIdentity` falls through. -/
inductive CertificateField where
  | commonName
  | emailAddress
  | dnsName
  | organization
  | organizationalUnit
deriving DecidableEq, Repr

/- What `formatDN` marks the field with, if it is marked. -/
def CertificateField.label :
    CertificateField → Option String
| .commonName => some "CN"
| .emailAddress => none
| .dnsName => none
| .organization => some "O"
| .organizationalUnit => some "OU"

/- A value of the field as an identity. -/
def CertificateField.spell
    (field : CertificateField)
    (text : String) : String :=
  match field.label with
  | some label => formatDN label text
  | none => text

/- The first field that a certificate has, and its text. -/
inductive Certificate.Leads (cert : Certificate) :
    CertificateField → String → Prop
| commonName :
    cert.commonName ≠ "" →
      Leads cert .commonName cert.commonName
| emailAddress {email : String} {others : List String} :
    cert.commonName = "" →
      cert.emailAddresses = email :: others →
        Leads cert .emailAddress email
| dnsName {dnsName : String} {others : List String} :
    cert.commonName = "" →
      cert.emailAddresses = [] →
        cert.dnsNames = dnsName :: others →
          Leads cert .dnsName dnsName
| organization
    {organization : String}
    {others : List String} :
    cert.commonName = "" →
      cert.emailAddresses = [] →
        cert.dnsNames = [] →
          cert.organization = organization :: others →
            Leads cert .organization organization
| organizationalUnit {unit : String} {others : List String} :
    cert.commonName = "" →
      cert.emailAddresses = [] →
        cert.dnsNames = [] →
          cert.organization = [] →
            cert.organizationalUnit = unit :: others →
              Leads cert .organizationalUnit unit

/-
  If the two have the same identity, it is the same value of
  the same field.
-/
def Distinguishes (left right : Certificate) : Prop :=
  extractIdentity left = extractIdentity right →
    extractIdentity left ≠ "" →
      ∃ field text,
        left.Leads field text ∧ right.Leads field text

/-
  The first certificate leads with an unmarked name that
  reads like another field, which the second leads with.
-/
def Impersonates (left right : Certificate) : Prop :=
  ∃ field text other value,
    left.Leads field text ∧
      field.label = none ∧
      text ≠ "" ∧
      right.Leads other value ∧
      other ≠ field ∧
      text = other.spell value

end Auth

end AuthCallout

------------------------------------------------------------
-- The Leading Field
------------------------------------------------------------

namespace AuthCallout

namespace Auth

variable {cert : Certificate}
variable {field other : CertificateField}
variable {text value : String}

/- The identity is the spelling of the leading field. -/
theorem extractIdentity_of_leads
    (hLeads : cert.Leads field text) :
    extractIdentity cert = field.spell text := by
  unfold extractIdentity
  cases hLeads with
  | commonName hName =>
      rw [if_pos hName]
      rfl
  | emailAddress hName hEmail =>
      rw [if_neg (not_not.mpr hName), hEmail]
      rfl
  | dnsName hName hEmail hDNS =>
      rw [if_neg (not_not.mpr hName), hEmail, hDNS]
      rfl
  | organization hName hEmail hDNS hOrganization =>
      rw [if_neg (not_not.mpr hName), hEmail, hDNS,
        hOrganization]
      rfl
  | organizationalUnit hName hEmail hDNS hOrganization hUnit =>
      rw [if_neg (not_not.mpr hName), hEmail, hDNS,
        hOrganization, hUnit]
      rfl

/- A certificate with an identity has a leading field. -/
theorem exists_leads
    (hIdentity : extractIdentity cert ≠ "") :
    ∃ field text, cert.Leads field text := by
  by_cases hName : cert.commonName = ""
  · cases hEmail : cert.emailAddresses with
    | cons email others =>
        exact ⟨_, _, .emailAddress hName hEmail⟩
    | nil =>
        cases hDNS : cert.dnsNames with
        | cons dnsName others =>
            exact ⟨_, _, .dnsName hName hEmail hDNS⟩
        | nil =>
            cases hOrganization : cert.organization with
            | cons organization others =>
                exact ⟨_, _, .organization hName hEmail hDNS
                  hOrganization⟩
            | nil =>
                cases hUnit : cert.organizationalUnit with
                | cons unit others =>
                    exact ⟨_, _, .organizationalUnit hName
                      hEmail hDNS hOrganization hUnit⟩
                | nil =>
                    -- No field is left to fall back on.
                    apply absurd _ hIdentity
                    simp [extractIdentity, hName, hEmail,
                      hDNS, hOrganization, hUnit]
  · exact ⟨_, _, .commonName hName⟩

/- There is one leading field. -/
theorem Certificate.Leads.field_eq
    (hLeft : cert.Leads field text)
    (hRight : cert.Leads other value) :
    field = other := by
  cases hLeft <;> cases hRight <;> simp_all

end Auth

end AuthCallout

------------------------------------------------------------
-- Spellings
------------------------------------------------------------

namespace AuthCallout

namespace Auth

variable {field other : CertificateField}
variable {text value : String}

theorem spell_of_label_none (hRaw : field.label = none) :
    field.spell text = text := by
  unfold CertificateField.spell
  rw [hRaw]

theorem formatDN_toList (label text : String) :
    (formatDN label text).toList =
      label.toList ++ '=' :: text.toList := by
  simp [formatDN]

/- One field spells different values differently. -/
theorem spell_injective
    (hSame : field.spell text = field.spell value) :
    text = value := by
  unfold CertificateField.spell at hSame
  split at hSame
  · have hChars := congrArg String.toList hSame
    rw [formatDN_toList, formatDN_toList,
      List.append_cancel_left_eq, List.cons.injEq] at hChars
    exact String.toList_inj.mp hChars.2
  · exact hSame

/- Marked fields are told apart by their labels. -/
theorem field_eq_of_spell_eq
    (hField : field.label ≠ none)
    (hOther : other.label ≠ none)
    (hSame : field.spell text = other.spell value) :
    field = other := by
  have hChars := congrArg String.toList hSame
  clear hSame
  cases field <;> cases other <;>
    simp_all [CertificateField.spell,
      CertificateField.label, formatDN_toList]

end Auth

end AuthCallout

------------------------------------------------------------
-- Identities Of Two Certificates
------------------------------------------------------------

namespace AuthCallout

namespace Auth

variable {left right : Certificate}

theorem Distinguishes.symm
    (hDistinguishes : Distinguishes left right) :
    Distinguishes right left := by
  intro hSame hIdentity
  rcases hDistinguishes hSame.symm (hSame ▸ hIdentity) with
    ⟨field, text, hLeft, hRight⟩
  exact ⟨field, text, hRight, hLeft⟩

/- A name that reads like another field is confused. -/
theorem Distinguishes.not_impersonates
    (hDistinguishes : Distinguishes left right) :
    ¬ Impersonates left right := by
  intro hImpersonates
  rcases hImpersonates with
    ⟨field, text, other, value, hLeft, hRaw, hText, hRight,
      hOther, hSpell⟩
  have hLeftIdentity : extractIdentity left = text := by
    rw [extractIdentity_of_leads hLeft,
      spell_of_label_none hRaw]
  have hRightIdentity : extractIdentity right = text := by
    rw [extractIdentity_of_leads hRight, hSpell]
  rcases hDistinguishes
      (hLeftIdentity.trans hRightIdentity.symm)
      (by rwa [hLeftIdentity]) with
    ⟨common, _, hLeftCommon, hRightCommon⟩
  apply hOther
  calc
    other = common := hRight.field_eq hRightCommon
    _ = field := hLeftCommon.field_eq hLeft

/-
  Two certificates have one identity from different fields
  only if one of them leads with an unmarked name that reads
  like the other's field.
-/
theorem distinguishes_iff (left right : Certificate) :
    Distinguishes left right ↔
      ¬ (Impersonates left right ∨
        Impersonates right left) := by
  constructor
  · intro hDistinguishes hEither
    rcases hEither with hLeft | hRight
    · exact hDistinguishes.not_impersonates hLeft
    · exact hDistinguishes.symm.not_impersonates hRight
  · intro hNeither hSame hIdentity
    rcases exists_leads hIdentity with ⟨field, text, hLeft⟩
    rcases exists_leads (hSame ▸ hIdentity) with
      ⟨other, value, hRight⟩
    rw [extractIdentity_of_leads hLeft] at hSame hIdentity
    rw [extractIdentity_of_leads hRight] at hSame
    have hFields : field = other := by
      by_contra hDiffer
      by_cases hField : field.label = none
      · rw [spell_of_label_none hField] at hSame hIdentity
        exact hNeither (Or.inl
          ⟨field, text, other, value, hLeft, hField,
            hIdentity, hRight, fun h => hDiffer h.symm,
            hSame⟩)
      · by_cases hOther : other.label = none
        · rw [hSame, spell_of_label_none hOther] at hIdentity
          rw [spell_of_label_none hOther] at hSame
          exact hNeither (Or.inr
            ⟨other, value, field, text, hRight, hOther,
              hIdentity, hLeft, hDiffer, hSame.symm⟩)
        · exact hDiffer
            (field_eq_of_spell_eq hField hOther hSame)
    rw [← hFields] at hSame hRight
    have hTexts := spell_injective hSame
    rw [← hTexts] at hRight
    exact ⟨field, text, hLeft, hRight⟩

/- A certificate of the gateway, by its common name. -/
def gatewayCertificate : Certificate where
  raw := [1]
  commonName := "gateway"
  emailAddresses := []
  dnsNames := []
  organization := []
  organizationalUnit := []

/- One without a common name, for a mailbox. -/
def mailboxCertificate : Certificate where
  raw := [2]
  commonName := ""
  emailAddresses := ["CN=gateway"]
  dnsNames := []
  organization := []
  organizationalUnit := []

/- The mailbox has the identity of the gateway. -/
theorem not_distinguishes_mailbox :
    extractIdentity mailboxCertificate = "CN=gateway" ∧
      extractIdentity gatewayCertificate = "CN=gateway" ∧
      ¬ Distinguishes mailboxCertificate
        gatewayCertificate := by
  refine ⟨by decide, by decide, ?_⟩
  rw [distinguishes_iff, not_not]
  refine Or.inl
    ⟨.emailAddress, "CN=gateway", .commonName, "gateway",
      .emailAddress rfl rfl, rfl, by decide,
      .commonName (by decide), by decide, by decide⟩

end Auth

end AuthCallout
