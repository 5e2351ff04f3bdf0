import Arbiter.Proofs.Document.Records
import Arbiter.Proofs.Json.Text

/-!
Reading undoes writing: from the JSON text of a value, with any fields left out that hold their
defaults, the value comes back; with a field left out that has no default, none does.
-/

namespace Arbiter.Json

open Document Outline

/-- JSON shows what was written. -/
def rendition : Rendition Json where
  ofDatum := ofDatum
  integer range n hmin hmax := by
    have hword : n ≤ Text.maxWord := by
      have hmaxWord : Text.maxWord = 2 ^ 64 - 1 := rfl
      omega
    change readInteger range (.number (Numeral.ofInt n)) = _
    simp only [readInteger, Numeral.value_ofInt hmin hword]
  text s := rfl
  flag b := rfl
  word allowed s h := by
    change checkWord allowed s = _
    rw [checkWord, List.contains_iff_mem.mpr h, if_pos rfl]
  null_isAbsent := rfl
  list_isAbsent ds := rfl
  list ds := by
    change Except.ok (Run.mk (ofItems ds) true) = _
    rw [ofItems_eq]
  fields title fs := by
    change Except.ok (Fields.named ⟨(ofFields fs).map member, true⟩) = _
    rw [ofFields_eq, List.map_map]
    rfl

section Decode

variable {α : Type} [Readable α] [Outlined α] [Faithful α]

theorem decode_shows (a : α) {d : Datum} (h : (outline a).Shows d) :
    decode (render d) = .ok a := by
  rw [decode_render]
  exact Faithful.recovers rendition a h

theorem decode_lacks (a : α) {s : FieldSet} {path : List Step}
    (h : LacksAt s (outline a).places path) :
    ∃ fault, (decode (render ((outline a).without s)) : Read α) = .error fault := by
  rw [decode_render]
  cases hread : (read (ofDatum ((outline a).without s)) : Read α) with
  | error fault => exact ⟨fault, rfl⟩
  | ok b => exact absurd hread (Faithful.misses rendition a h b)

end Decode

/-- What is left out of a text decides by itself what comes back: nothing is lost if it is left out by
writing or holds its default, and nothing comes back without what has no default. -/
structure Recoverable (α : Type) [Readable α] [Writable α] [Outlined α] : Prop where
  written (a : α) : decode (render (write a)) = .ok a
  spared (a : α) (s : FieldSet) (h : Spared s (outline a).places) :
    decode (render ((outline a).without s)) = .ok a
  missed (a : α) (s : FieldSet) (path : List Step) (h : LacksAt s (outline a).places path) :
    ∃ fault, (decode (render ((outline a).without s)) : Read α) = .error fault

theorem recoverable (α : Type) [Readable α] [Writable α] [Outlined α] [Faithful α] [Spares α] :
    Recoverable α where
  written a := decode_shows a (Spares.shows a)
  spared a s h := decode_shows a (shows_without s _ h)
  missed a _ _ h := decode_lacks a h

/-- What identifies a provider is enough for an entry; everything else is as in a new one. -/
theorem decode_identity (version : Version) (domain interface participant : String) :
    decode (render (.record
      [("domain", write domain), ("interfaceName", write interface),
       ("participantId", write participant), ("providerVersion", write version)])) =
      .ok ({ version, domain, interface, participant } : Entry) := by
  have hdefault : ∀ f ∈ Entry.fields.drop 4,
      f.default = some (f.value { version, domain, interface, participant }) := by
    simp [Entry.fields]
  rw [decode_render]
  refine Entry.lays.read_chosen rendition _
    [Entry.fields[1], Entry.fields[2], Entry.fields[3], Entry.fields[0]] ?_ ?_ ?_ ?_
  · simp [List.cons_subset]
  · exact List.Nodup.of_map Field.name (by decide)
  · exact .kept (Spares.shows domain) (.kept (Spares.shows interface)
      (.kept (Spares.shows participant) (.kept (Spares.shows version) .nil)))
  · intro f hf hnot
    have hsplit : Entry.fields = Entry.fields[0] :: Entry.fields[1] :: Entry.fields[2] ::
        Entry.fields[3] :: Entry.fields.drop 4 := rfl
    rw [hsplit] at hf
    simp only [List.mem_cons, List.not_mem_nil, or_false, not_or] at hf hnot
    obtain ⟨hdomain, hinterface, hparticipant, hversion⟩ := hnot
    rcases hf with hf | hf | hf | hf | hf
    · exact absurd hf hversion
    · exact absurd hf hdomain
    · exact absurd hf hinterface
    · exact absurd hf hparticipant
    · exact hdefault f hf

/-- An empty list of backends is not the same as none at all. -/
theorem decode_knownGbids (entries : List Entry) :
    (decode (render (write ({ knownGbids := some [], entries } : Fixture))) : Read Fixture) ≠
      decode (render (write ({ knownGbids := none, entries } : Fixture))) := by
  rw [(recoverable Fixture).written, (recoverable Fixture).written]
  simp

/-- Reading undoes writing for everything that is kept in documents, with any fields left out that
hold their defaults, and never with a field left out that has no default. -/
theorem decode_undoes_render :
    (Recoverable Entry ∧ Recoverable ProviderQos ∧ Recoverable DiscoveryQos ∧
      Recoverable Fixture) ∧
    (∀ version domain interface participant,
      decode (render (.record
        [("domain", write domain), ("interfaceName", write interface),
         ("participantId", write participant), ("providerVersion", write version)])) =
        .ok ({ version, domain, interface, participant } : Entry)) ∧
    ∀ entries,
      (decode (render (write ({ knownGbids := some [], entries } : Fixture))) : Read Fixture) ≠
        decode (render (write ({ knownGbids := none, entries } : Fixture))) :=
  ⟨⟨recoverable Entry, recoverable ProviderQos, recoverable DiscoveryQos, recoverable Fixture⟩,
    decode_identity, decode_knownGbids⟩

/-- A radio with a quote, a control character and an emoji in its texts, at the ends of the ranges. -/
def oddEntry : Entry where
  version := { major := Int32.minValue, minor := Int32.maxValue }
  domain := "say \"radio\"\n"
  interface := "radio"
  participant := "📻\x01"
  qos := { priority := Int64.minValue, supportsOnChange := true }
  lastSeen := Int64.maxValue

/-- The scope lies inside of what is written, the others beside it. -/
def oddlySpared : FieldSet := fun path =>
  path ∈ [[.field "qos", .field "scope"], [.field "expiryDateMs"], [.field "isLocal"]]

/-- Deep inside, where no default stands in for it. -/
def oddlyMissing : List Step :=
  [.field "entries", .item 0, .field "providerVersion", .field "minor"]

theorem decode_oddEntry :
    decode (render ((outline oddEntry).without oddlySpared)) = .ok oddEntry ∧
      ∃ fault, (decode (render ((outline ({ entries := [oddEntry] } : Fixture)).without
        (· = oddlyMissing))) : Read Fixture) = .error fault := by
  obtain ⟨⟨hentry, _, _, hfixture⟩, _⟩ := decode_undoes_render
  have hspared : Spared oddlySpared (outline oddEntry).places := by
    unfold Spared
    decide +kernel
  have hlacks : LacksAt (· = oddlyMissing)
      (outline ({ entries := [oddEntry] } : Fixture)).places oddlyMissing :=
    ⟨by decide +kernel, by decide, by decide +kernel⟩
  exact ⟨hentry.spared oddEntry oddlySpared hspared, hfixture.missed _ _ oddlyMissing hlacks⟩

end Arbiter.Json
