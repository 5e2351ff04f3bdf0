import Arbiter.Document.Datum
import Arbiter.Document.Source
import Arbiter.Entry
import Arbiter.Request

/-!
How versions, entries and the qualities of service stand in documents: the names of their fields and
their order, and which of them may be left out.
-/

namespace Arbiter

open Document

instance : Readable ProviderScope := ⟨readLiteral⟩
instance : Readable DiscoveryScope := ⟨readLiteral⟩
instance : Readable Strategy := ⟨readLiteral⟩

instance : Writable ProviderScope := ⟨fun s => .text (Literal.word s)⟩
instance : Writable DiscoveryScope := ⟨fun s => .text (Literal.word s)⟩
instance : Writable Strategy := ⟨fun s => .text (Literal.word s)⟩

namespace Version

structure Draft where
  major : Option Int32 := none
  minor : Option Int32 := none

def layout : Layout Draft Version where
  name := "Version"
  slots :=
    [.of "major" Draft.major fun a draft => { draft with major := some a },
     .of "minor" Draft.minor fun a draft => { draft with minor := some a }]
  blank := {}
  finish draft := do
    return {
      major := ← Layout.need "major" draft.major
      minor := ← Layout.need "minor" draft.minor }

instance : Readable Version := ⟨layout.read⟩

instance : Writable Version where
  write v := .record [("major", write v.major), ("minor", write v.minor)]

end Version

namespace CustomParameter

structure Draft where
  name : Option String := none
  value : Option String := none

def layout : Layout Draft CustomParameter where
  name := "CustomParameter"
  slots :=
    [.of "name" Draft.name fun a draft => { draft with name := some a },
     .of "value" Draft.value fun a draft => { draft with value := some a }]
  blank := {}
  finish draft := do
    return {
      name := ← Layout.need "name" draft.name
      value := ← Layout.need "value" draft.value }

instance : Readable CustomParameter := ⟨layout.read⟩

instance : Writable CustomParameter where
  write p := .record [("name", write p.name), ("value", write p.value)]

end CustomParameter

namespace ProviderQos

structure Draft where
  customParameters : Option (List CustomParameter) := none
  priority : Option Int64 := none
  scope : Option ProviderScope := none
  supportsOnChange : Option Bool := none

/-- Every field may be left out. -/
def layout : Layout Draft ProviderQos where
  name := "ProviderQos"
  slots :=
    [.of "customParameters" Draft.customParameters
       fun a draft => { draft with customParameters := some a },
     .of "priority" Draft.priority fun a draft => { draft with priority := some a },
     .of "scope" Draft.scope fun a draft => { draft with scope := some a },
     .of "supportsOnChangeSubscriptions" Draft.supportsOnChange
       fun a draft => { draft with supportsOnChange := some a }]
  blank := {}
  finish draft :=
    let standard : ProviderQos := {}
    .ok {
      customParameters := draft.customParameters.getD standard.customParameters
      priority := draft.priority.getD standard.priority
      scope := draft.scope.getD standard.scope
      supportsOnChange := draft.supportsOnChange.getD standard.supportsOnChange }

instance : Readable ProviderQos := ⟨layout.read⟩

/-- The custom parameters are not written if there are none. -/
instance : Writable ProviderQos where
  write qos := .record
    ((if qos.customParameters.isEmpty then []
      else [("customParameters", write qos.customParameters)]) ++
     [("priority", write qos.priority), ("scope", write qos.scope),
      ("supportsOnChangeSubscriptions", write qos.supportsOnChange)])

end ProviderQos

namespace Entry

structure Draft where
  version : Option Version := none
  domain : Option String := none
  interface : Option String := none
  participant : Option String := none
  qos : Option ProviderQos := none
  lastSeen : Option Int64 := none
  expiry : Option Int64 := none
  publicKey : Option String := none
  isLocal : Option Bool := none

/-- What identifies a provider has to be there; the rest may be left out. -/
def layout : Layout Draft Entry where
  name := "DiscoveryEntry"
  slots :=
    [.of "providerVersion" Draft.version fun a draft => { draft with version := some a },
     .of "domain" Draft.domain fun a draft => { draft with domain := some a },
     .of "interfaceName" Draft.interface fun a draft => { draft with interface := some a },
     .of "participantId" Draft.participant fun a draft => { draft with participant := some a },
     .of "qos" Draft.qos fun a draft => { draft with qos := some a },
     .of "lastSeenDateMs" Draft.lastSeen fun a draft => { draft with lastSeen := some a },
     .of "expiryDateMs" Draft.expiry fun a draft => { draft with expiry := some a },
     .of "publicKeyId" Draft.publicKey fun a draft => { draft with publicKey := some a },
     .of "isLocal" Draft.isLocal fun a draft => { draft with isLocal := some a }]
  blank := {}
  finish draft := do
    let e : Entry := {
      version := ← Layout.need "providerVersion" draft.version
      domain := ← Layout.need "domain" draft.domain
      interface := ← Layout.need "interfaceName" draft.interface
      participant := ← Layout.need "participantId" draft.participant }
    return { e with
      qos := draft.qos.getD e.qos
      lastSeen := draft.lastSeen.getD e.lastSeen
      expiry := draft.expiry.getD e.expiry
      publicKey := draft.publicKey.getD e.publicKey
      isLocal := draft.isLocal.getD e.isLocal }

instance : Readable Entry := ⟨layout.read⟩

instance : Writable Entry where
  write e := .record
    [("providerVersion", write e.version), ("domain", write e.domain),
     ("interfaceName", write e.interface), ("participantId", write e.participant),
     ("qos", write e.qos), ("lastSeenDateMs", write e.lastSeen),
     ("expiryDateMs", write e.expiry), ("publicKeyId", write e.publicKey),
     ("isLocal", write e.isLocal)]

end Entry

namespace DiscoveryQos

structure Draft where
  cacheMaxAge : Option Int64 := none
  timeout : Option Int64 := none
  scope : Option DiscoveryScope := none
  mustSupportOnChange : Option Bool := none

def layout : Layout Draft DiscoveryQos where
  name := "DiscoveryQos"
  slots :=
    [.of "cacheMaxAgeMs" Draft.cacheMaxAge fun a draft => { draft with cacheMaxAge := some a },
     .of "discoveryTimeoutMs" Draft.timeout fun a draft => { draft with timeout := some a },
     .of "discoveryScope" Draft.scope fun a draft => { draft with scope := some a },
     .of "providerMustSupportOnChange" Draft.mustSupportOnChange
       fun a draft => { draft with mustSupportOnChange := some a }]
  blank := {}
  finish draft := do
    return {
      cacheMaxAge := ← Layout.need "cacheMaxAgeMs" draft.cacheMaxAge
      timeout := ← Layout.need "discoveryTimeoutMs" draft.timeout
      scope := ← Layout.need "discoveryScope" draft.scope
      mustSupportOnChange :=
        ← Layout.need "providerMustSupportOnChange" draft.mustSupportOnChange }

instance : Readable DiscoveryQos := ⟨layout.read⟩

instance : Writable DiscoveryQos where
  write qos := .record
    [("cacheMaxAgeMs", write qos.cacheMaxAge), ("discoveryTimeoutMs", write qos.timeout),
     ("discoveryScope", write qos.scope),
     ("providerMustSupportOnChange", write qos.mustSupportOnChange)]

end DiscoveryQos

end Arbiter
