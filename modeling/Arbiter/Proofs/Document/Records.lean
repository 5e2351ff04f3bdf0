import Arbiter.Document.Records
import Arbiter.Fixture
import Arbiter.Proofs.Document.Fields

/-!
Entries, fixtures and the qualities of service are recovered from what is written for them. The
defaults of their fields are listed here as a document leaves them out.
-/

namespace Arbiter

open Document

section Words

variable {α : Type} [Literal α] [Inhabited α]

/-- A word that names a value is read as that value. -/
theorem readLiteral_word {D : Type} [Source D] (format : Rendition D) {a : α}
    (hmem : Literal.word a ∈ Literal.words α) (hword : Literal.ofWord? (Literal.word a) = some a) :
    readLiteral (format.ofDatum (.text (Literal.word a))) = .ok a := by
  rw [readLiteral, format.word _ _ hmem]
  simp only [bind, Except.bind, hword]
  rfl

instance : Outlined ProviderScope := ⟨fun s => .plain (write s)⟩
instance : Outlined DiscoveryScope := ⟨fun s => .plain (write s)⟩

instance : Spares ProviderScope := ⟨fun s => .plain (write s)⟩
instance : Spares DiscoveryScope := ⟨fun s => .plain (write s)⟩

instance : Faithful ProviderScope := Faithful.of_plain write (fun _ => rfl) fun format s =>
  readLiteral_word format (by cases s <;> decide) (by cases s <;> decide)

instance : Faithful DiscoveryScope := Faithful.of_plain write (fun _ => rfl) fun format s =>
  readLiteral_word format (by cases s <;> decide) (by cases s <;> decide)

end Words

namespace Version

def fields : List (Field Draft Version) :=
  [{ name := "major", Held := Int32, value := major, default := none, get := Draft.major
     set := fun x draft => { draft with major := some x } },
   { name := "minor", Held := Int32, value := minor, default := none, get := Draft.minor
     set := fun x draft => { draft with minor := some x } }]

instance : Outlined Version := ⟨recordOutline fields⟩

theorem lays : Lays layout fields where
  slots := rfl
  names := by decide
  apart := by simp [fields, Field.Apart]
  blank := by simp [fields, layout]
  finish := by
    intro v draft h
    simp only [fields, List.forall_mem_cons] at h
    obtain ⟨hmajor, hminor, -⟩ := h
    have hmajor : draft.major = some v.major := hmajor.get_of_needed rfl
    have hminor : draft.minor = some v.minor := hminor.get_of_needed rfl
    simp only [layout, hmajor, hminor, Layout.need_some]
    rfl
  need := by
    intro draft v h
    simp only [layout, Layout.need_bind_eq_ok] at h
    obtain ⟨major, hmajor, minor, hminor, _⟩ := h
    simp [fields, hmajor, hminor]

instance : Faithful Version := .of_record lays (fun _ => rfl) (fun _ => rfl)

instance : Spares Version where
  shows v := .record (.kept (Spares.shows v.major) (.kept (Spares.shows v.minor) .nil))

end Version

namespace CustomParameter

def fields : List (Field Draft CustomParameter) :=
  [{ name := "name", Held := String, value := name, default := none, get := Draft.name
     set := fun x draft => { draft with name := some x } },
   { name := "value", Held := String, value := value, default := none, get := Draft.value
     set := fun x draft => { draft with value := some x } }]

instance : Outlined CustomParameter := ⟨recordOutline fields⟩

theorem lays : Lays layout fields where
  slots := rfl
  names := by decide
  apart := by simp [fields, Field.Apart]
  blank := by simp [fields, layout]
  finish := by
    intro p draft h
    simp only [fields, List.forall_mem_cons] at h
    obtain ⟨hname, hvalue, -⟩ := h
    have hname : draft.name = some p.name := hname.get_of_needed rfl
    have hvalue : draft.value = some p.value := hvalue.get_of_needed rfl
    simp only [layout, hname, hvalue, Layout.need_some]
    rfl
  need := by
    intro draft p h
    simp only [layout, Layout.need_bind_eq_ok] at h
    obtain ⟨name, hname, value, hvalue, _⟩ := h
    simp [fields, hname, hvalue]

instance : Faithful CustomParameter := .of_record lays (fun _ => rfl) (fun _ => rfl)

instance : Spares CustomParameter where
  shows p := .record (.kept (Spares.shows p.name) (.kept (Spares.shows p.value) .nil))

end CustomParameter

namespace ProviderQos

def fields : List (Field Draft ProviderQos) :=
  [{ name := "customParameters", Held := List CustomParameter, value := customParameters
     default := some [], get := Draft.customParameters
     set := fun x draft => { draft with customParameters := some x } },
   { name := "priority", Held := Int64, value := priority, default := some 0, get := Draft.priority
     set := fun x draft => { draft with priority := some x } },
   { name := "scope", Held := ProviderScope, value := scope, default := some .global
     get := Draft.scope, set := fun x draft => { draft with scope := some x } },
   { name := "supportsOnChangeSubscriptions", Held := Bool, value := supportsOnChange
     default := some false, get := Draft.supportsOnChange
     set := fun x draft => { draft with supportsOnChange := some x } }]

instance : Outlined ProviderQos := ⟨recordOutline fields⟩

theorem lays : Lays layout fields where
  slots := rfl
  names := by decide
  apart := by simp [fields, Field.Apart]
  blank := by simp [fields, layout]
  finish := by
    intro qos draft h
    simp only [fields, List.forall_mem_cons] at h
    obtain ⟨hparameters, hpriority, hscope, honChange, -⟩ := h
    have hparameters : draft.customParameters.getD [] = qos.customParameters := hparameters.getD rfl
    have hpriority : draft.priority.getD 0 = qos.priority := hpriority.getD rfl
    have hscope : draft.scope.getD .global = qos.scope := hscope.getD rfl
    have honChange : draft.supportsOnChange.getD false = qos.supportsOnChange := honChange.getD rfl
    simp only [layout, hparameters, hpriority, hscope, honChange]
  need := by simp [fields]

instance : Faithful ProviderQos := .of_record lays (fun _ => rfl) (fun _ => rfl)

instance : Spares ProviderQos where
  shows qos := by
    obtain ⟨parameters, priority, scope, onChange⟩ := qos
    cases parameters with
    | nil =>
      exact .record (.omitted (.kept (Spares.shows priority) (.kept (Spares.shows scope)
        (.kept (Spares.shows onChange) .nil))))
    | cons p ps =>
      exact .record (.kept (Spares.shows (p :: ps)) (.kept (Spares.shows priority)
        (.kept (Spares.shows scope) (.kept (Spares.shows onChange) .nil))))

end ProviderQos

namespace Entry

def fields : List (Field Draft Entry) :=
  [{ name := "providerVersion", Held := Version, value := version, default := none
     get := Draft.version, set := fun x draft => { draft with version := some x } },
   { name := "domain", Held := String, value := domain, default := none
     get := Draft.domain, set := fun x draft => { draft with domain := some x } },
   { name := "interfaceName", Held := String, value := interface, default := none
     get := Draft.interface, set := fun x draft => { draft with interface := some x } },
   { name := "participantId", Held := String, value := participant, default := none
     get := Draft.participant, set := fun x draft => { draft with participant := some x } },
   { name := "qos", Held := ProviderQos, value := qos, default := some {}
     get := Draft.qos, set := fun x draft => { draft with qos := some x } },
   { name := "lastSeenDateMs", Held := Int64, value := lastSeen, default := some 0
     get := Draft.lastSeen, set := fun x draft => { draft with lastSeen := some x } },
   { name := "expiryDateMs", Held := Int64, value := expiry, default := some Int64.maxValue
     get := Draft.expiry, set := fun x draft => { draft with expiry := some x } },
   { name := "publicKeyId", Held := String, value := publicKey, default := some ""
     get := Draft.publicKey, set := fun x draft => { draft with publicKey := some x } },
   { name := "isLocal", Held := Bool, value := isLocal, default := some false
     get := Draft.isLocal, set := fun x draft => { draft with isLocal := some x } }]

instance : Outlined Entry := ⟨recordOutline fields⟩

theorem lays : Lays layout fields where
  slots := rfl
  names := by decide
  apart := by simp [fields, Field.Apart]
  blank := by simp [fields, layout]
  finish := by
    intro e draft h
    simp only [fields, List.forall_mem_cons] at h
    obtain ⟨hversion, hdomain, hinterface, hparticipant, hqos, hlastSeen, hexpiry, hpublicKey,
      hisLocal, -⟩ := h
    have hversion : draft.version = some e.version := hversion.get_of_needed rfl
    have hdomain : draft.domain = some e.domain := hdomain.get_of_needed rfl
    have hinterface : draft.interface = some e.interface := hinterface.get_of_needed rfl
    have hparticipant : draft.participant = some e.participant := hparticipant.get_of_needed rfl
    have hqos : draft.qos.getD {} = e.qos := hqos.getD rfl
    have hlastSeen : draft.lastSeen.getD 0 = e.lastSeen := hlastSeen.getD rfl
    have hexpiry : draft.expiry.getD Int64.maxValue = e.expiry := hexpiry.getD rfl
    have hpublicKey : draft.publicKey.getD "" = e.publicKey := hpublicKey.getD rfl
    have hisLocal : draft.isLocal.getD false = e.isLocal := hisLocal.getD rfl
    simp only [layout, hversion, hdomain, hinterface, hparticipant, Layout.need_some, hqos,
      hlastSeen, hexpiry, hpublicKey, hisLocal]
    rfl
  need := by
    intro draft e h
    simp only [layout, Layout.need_bind_eq_ok] at h
    obtain ⟨version, hversion, domain, hdomain, interface, hinterface, participant, hparticipant, _⟩ := h
    simp [fields, hversion, hdomain, hinterface, hparticipant]

instance : Faithful Entry := .of_record lays (fun _ => rfl) (fun _ => rfl)

instance : Spares Entry where
  shows e := .record (.kept (Spares.shows e.version) (.kept (Spares.shows e.domain)
    (.kept (Spares.shows e.interface) (.kept (Spares.shows e.participant)
      (.kept (Spares.shows e.qos) (.kept (Spares.shows e.lastSeen) (.kept (Spares.shows e.expiry)
        (.kept (Spares.shows e.publicKey) (.kept (Spares.shows e.isLocal) .nil)))))))))

end Entry

namespace DiscoveryQos

def fields : List (Field Draft DiscoveryQos) :=
  [{ name := "cacheMaxAgeMs", Held := Int64, value := cacheMaxAge, default := none
     get := Draft.cacheMaxAge, set := fun x draft => { draft with cacheMaxAge := some x } },
   { name := "discoveryTimeoutMs", Held := Int64, value := timeout, default := none
     get := Draft.timeout, set := fun x draft => { draft with timeout := some x } },
   { name := "discoveryScope", Held := DiscoveryScope, value := scope, default := none
     get := Draft.scope, set := fun x draft => { draft with scope := some x } },
   { name := "providerMustSupportOnChange", Held := Bool, value := mustSupportOnChange
     default := none, get := Draft.mustSupportOnChange
     set := fun x draft => { draft with mustSupportOnChange := some x } }]

instance : Outlined DiscoveryQos := ⟨recordOutline fields⟩

theorem lays : Lays layout fields where
  slots := rfl
  names := by decide
  apart := by simp [fields, Field.Apart]
  blank := by simp [fields, layout]
  finish := by
    intro qos draft h
    simp only [fields, List.forall_mem_cons] at h
    obtain ⟨hmaxAge, htimeout, hscope, honChange, -⟩ := h
    have hmaxAge : draft.cacheMaxAge = some qos.cacheMaxAge := hmaxAge.get_of_needed rfl
    have htimeout : draft.timeout = some qos.timeout := htimeout.get_of_needed rfl
    have hscope : draft.scope = some qos.scope := hscope.get_of_needed rfl
    have honChange : draft.mustSupportOnChange = some qos.mustSupportOnChange :=
      honChange.get_of_needed rfl
    simp only [layout, hmaxAge, htimeout, hscope, honChange, Layout.need_some]
    rfl
  need := by
    intro draft qos h
    simp only [layout, Layout.need_bind_eq_ok] at h
    obtain ⟨maxAge, hmaxAge, timeout, htimeout, scope, hscope, onChange, honChange, _⟩ := h
    simp [fields, hmaxAge, htimeout, hscope, honChange]

instance : Faithful DiscoveryQos := .of_record lays (fun _ => rfl) (fun _ => rfl)

instance : Spares DiscoveryQos where
  shows qos := .record (.kept (Spares.shows qos.cacheMaxAge) (.kept (Spares.shows qos.timeout)
    (.kept (Spares.shows qos.scope) (.kept (Spares.shows qos.mustSupportOnChange) .nil))))

end DiscoveryQos

namespace Fixture

def fields : List (Field Draft Fixture) :=
  [{ name := "knownGbids", Held := Option (List String), value := knownGbids, default := some none
     get := Draft.knownGbids, set := fun x draft => { draft with knownGbids := some x } },
   { name := "entries", Held := List Entry, value := entries, default := some []
     get := Draft.entries, set := fun x draft => { draft with entries := some x } }]

instance : Outlined Fixture := ⟨recordOutline fields⟩

theorem lays : Lays layout fields where
  slots := rfl
  names := by decide
  apart := by simp [fields, Field.Apart]
  blank := by simp [fields, layout]
  finish := by
    intro f draft h
    simp only [fields, List.forall_mem_cons] at h
    obtain ⟨hgbids, hentries, -⟩ := h
    have hgbids : draft.knownGbids.getD none = f.knownGbids := hgbids.getD rfl
    have hentries : draft.entries.getD [] = f.entries := hentries.getD rfl
    simp only [layout, hgbids, hentries]
  need := by simp [fields]

instance : Faithful Fixture := .of_record lays (fun _ => rfl) (fun _ => rfl)

instance : Spares Fixture where
  shows f := by
    obtain ⟨gbids, entries⟩ := f
    cases gbids with
    | none => exact .record (.omitted (.kept (Spares.shows entries) .nil))
    | some gbids => exact .record (.kept (Spares.shows gbids) (.kept (Spares.shows entries) .nil))

end Fixture

end Arbiter
