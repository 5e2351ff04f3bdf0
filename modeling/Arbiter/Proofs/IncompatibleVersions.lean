import Arbiter.Failure
import Arbiter.Proofs.VersionSet
import Arbiter.Proofs.VersionText

/-!
The message about providers of versions that will not do. It lists each of their versions once, in
ascending order, and the versions can be read back from it.
-/

namespace Arbiter

/-- The versions that are listed in a text, with a comma and a blank between them. -/
def Version.listed (list : String) : List (Except Version.TextFault Version) :=
  (Text.cutAtPair ',' ' ' list.toList).map fun piece => Version.ofText (String.ofList piece)

theorem Version.no_comma (v : Version) : ',' ∉ v.toString.toList := by
  have hpart (n : Int) : ',' ∉ (Text.ofInt n).toList := fun hmem =>
    absurd ((Text.isSigned_ofInt n).isDigit_or_sign hmem) (by decide)
  rw [toList_toString, List.mem_append, List.mem_cons, not_or, not_or]
  exact ⟨hpart _, by decide, hpart _⟩

/-- The versions of a list are read back from it. -/
theorem Version.listed_join {vs : List Version} (hne : vs ≠ []) :
    listed (Text.join ", " (vs.map Version.toString)) = vs.map .ok := by
  have hchars : (Text.join ", " (vs.map Version.toString)).toList =
      [',', ' '].intercalate (vs.map fun v => v.toString.toList) := by
    rw [Text.toList_join, List.map_map]
    rfl
  have hcomma : ∀ piece ∈ vs.map fun v => v.toString.toList, ',' ∉ piece := by
    simpa using fun v _ => v.no_comma
  rw [listed, hchars, Text.cutAtPair_intercalate hcomma (by simpa using hne), List.map_map]
  refine List.map_congr_left fun v _ => ?_
  rw [Function.comp_apply, String.ofList_toList, ofText_toString]

section Entries

variable {required : Version} {es others : List Entry}

theorem incompatibleVersions_eq (hnone : ∀ e ∈ es, e.version.serves required = false) :
    incompatibleVersions required es = VersionSet.ofList (es.map (·.version)) := by
  rw [incompatibleVersions, List.filter_eq_self.mpr fun e he => by simp [hnone e he]]

theorem incompatibleVersions_congr (hnone : ∀ e ∈ es, e.version.serves required = false)
    (h : ∀ v, v ∈ others.map (·.version) ↔ v ∈ es.map (·.version)) :
    incompatibleVersions required others = incompatibleVersions required es := by
  have hothers : ∀ e ∈ others, e.version.serves required = false := by
    intro e he
    obtain ⟨e', he', hv⟩ := List.mem_map.mp ((h e.version).mp (List.mem_map_of_mem he))
    rw [← hv]
    exact hnone e' he'
  rw [incompatibleVersions_eq hnone, incompatibleVersions_eq hothers, VersionSet.ofList_congr h]

/-- What is said of entries none of which is compatible: behind the number of their versions these
are listed in ascending order, and nothing else in the entries plays a part. -/
theorem message_lists_versions (target : Target) (hne : es ≠ [])
    (hnone : ∀ e ∈ es, e.version.serves required = false) :
    let message := (Failure.noCompatibleProvider target (incompatibleVersions required es)).message
    (∃ (list : String) (vs : List Version),
      message = "Unable to find a provider with a compatible version for " ++ toString target ++
        ". " ++ Text.ofNat (es.map (·.version)).toFinset.card ++
        " incompatible versions found: " ++ list ∧
      Version.listed list = vs.map .ok ∧ (∀ v, v ∈ vs ↔ ∃ e ∈ es, e.version = v) ∧
      vs.Pairwise fun v w => v.major < w.major ∨ v.major = w.major ∧ v.minor < w.minor) ∧
    ∀ others : List Entry, (∀ v, v ∈ others.map (·.version) ↔ v ∈ es.map (·.version)) →
      (Failure.noCompatibleProvider target (incompatibleVersions required others)).message =
        message := by
  intro message
  refine ⟨?_, fun others h => by rw [incompatibleVersions_congr hnone h]⟩
  have hset := incompatibleVersions_eq hnone
  have hmem (v : Version) : v ∈ incompatibleVersions required es ↔ ∃ e ∈ es, e.version = v := by
    rw [hset, VersionSet.mem_ofList, List.mem_map]
  have hversions : incompatibleVersions required es ≠ [] := by
    obtain ⟨e, he⟩ := List.exists_mem_of_ne_nil es hne
    exact List.ne_nil_of_mem ((hmem e.version).mpr ⟨e, he, rfl⟩)
  refine ⟨_, incompatibleVersions required es, ?_, Version.listed_join hversions, hmem, ?_⟩
  · rw [← VersionSet.length_ofList, ← hset]
    rfl
  · rw [hset]
    refine (VersionSet.pairwise_ofList _).imp fun h => ?_
    simpa [Version.before] using h

/-- Radios of three versions, one of which comes twice. -/
def oldRadios : List Entry :=
  [{ version := { major := 1, minor := 10 }, domain := "vehicle", interface := "radio"
     participant := "radio-1" },
   { version := { major := -1, minor := 0 }, domain := "vehicle", interface := "radio"
     participant := "radio-2" },
   { version := { major := 1, minor := 10 }, domain := "vehicle", interface := "radio"
     participant := "radio-3" },
   { version := { major := 1, minor := 9 }, domain := "vehicle", interface := "radio"
     participant := "radio-4" }]

theorem oldRadios_listed :
    let message := fun es => (Failure.noCompatibleProvider (.participant "radio-1" "radio")
      (incompatibleVersions { major := 2, minor := 0 } es)).message
    (∃ (list : String) (vs : List Version),
      message oldRadios = "Unable to find a provider with a compatible version for " ++
        "participantId: radio-1" ++ ". " ++ "3" ++ " incompatible versions found: " ++ list ∧
      Version.listed list = vs.map .ok ∧ ∀ v, v ∈ vs ↔ ∃ e ∈ oldRadios, e.version = v) ∧
    message oldRadios.reverse = message oldRadios := by
  intro message
  have hnone : ∀ e ∈ oldRadios, e.version.serves { major := 2, minor := 0 } = false := by decide
  obtain ⟨⟨list, vs, hmessage, hlisted, hmem, -⟩, hothers⟩ :=
    message_lists_versions (.participant "radio-1" "radio") (by decide) hnone
  exact ⟨⟨list, vs, hmessage, hlisted, hmem⟩, hothers oldRadios.reverse (by simp)⟩

example : (Failure.noCompatibleProvider (.participant "radio-1" "radio")
    (incompatibleVersions { major := 2, minor := 0 } oldRadios)).message =
      "Unable to find a provider with a compatible version for participantId: radio-1. " ++
        "3 incompatible versions found: -1.0, 1.9, 1.10" := by
  decide

end Entries

end Arbiter
