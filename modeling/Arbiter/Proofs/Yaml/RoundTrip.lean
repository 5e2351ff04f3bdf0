import Arbiter.Proofs.Document.Records
import Arbiter.Proofs.Text.WholeNumber
import Arbiter.Proofs.Yaml.Nodes
import Arbiter.Yaml.Source

/-!
Reading undoes writing: from the YAML text of a value the value comes back. Numbers, truth values
and what is absent are told from texts by what plain scalars mean, everything else by where it
stands.
-/

namespace Arbiter.Yaml

open Document Outline

section Numbers

variable {n max : Nat}

theorem basedNatural?_natDigits (n : Nat) : basedNatural? (Text.natDigits n) = none := by
  unfold basedNatural?
  split
  case h_1 h => exact absurd (Text.natDigits_eq_zero_cons h) (List.cons_ne_nil _ _)
  case h_2 h => exact absurd (Text.natDigits_eq_zero_cons h) (List.cons_ne_nil _ _)
  case h_3 h => exact absurd (Text.natDigits_eq_zero_cons h) (List.cons_ne_nil _ _)
  case h_4 => rfl

theorem isZeroLed_natDigits (n : Nat) : isZeroLed (Text.natDigits n) = false := by
  unfold isZeroLed
  split
  case h_1 h => exact absurd (Text.natDigits_eq_zero_cons h) (List.cons_ne_nil _ _)
  case h_2 => rfl

theorem natural?_natDigits (h : n ≤ max) : natural? max (Text.natDigits n) = some n := by
  have hnatural : Text.natural? (Text.natDigits n) = some n :=
    Text.natural?_eq_some_iff.mpr (Text.denotes_natDigits n)
  rw [natural?, basedNatural?_natDigits, isZeroLed_natDigits, hnatural]
  simp [Option.filter, h]

theorem integer?_ofInt {min : Int} {n : Int} (hmin : min ≤ n) (hmax : n ≤ max) :
    integer? min max (Text.ofInt n).toList = some n := by
  cases n with
  | ofNat n =>
    obtain ⟨c, cs, hcs, hc⟩ := Text.natDigits_eq_cons n
    have hnatural : natural? max (c :: cs) = some n :=
      hcs ▸ natural?_natDigits (Int.ofNat_le.mp hmax)
    rw [Text.toList_ofInt_ofNat, hcs, integer?.eq_def]
    -- A number without a sign begins with a digit, so it is read as it stands.
    split
    next h =>
      obtain rfl := (List.cons.inj h).1
      exact absurd hc (by decide)
    next h =>
      obtain rfl := (List.cons.inj h).1
      exact absurd hc (by decide)
    next =>
      rw [hnatural]
      rfl
  | negSucc n =>
    have hbound : n + 1 ≤ min.natAbs := by omega
    rw [Text.toList_ofInt_negSucc, integer?, natural?_natDigits hbound]
    change Option.filter (fun m => decide (min ≤ m)) (some (Int.negSucc n)) = _
    simp [Option.filter, hmin]

theorem int64?_ofInt {n : Int} (hmin : -2 ^ 63 ≤ n) (hmax : n < 2 ^ 63) :
    int64? (Text.ofInt n) = some n :=
  integer?_ofInt hmin (Int.le_of_lt_add_one hmax)

end Numbers

/-- YAML shows what was written. -/
def rendition : Rendition Content where
  ofDatum d := { root := nodeOf d, names := [] }
  integer range n hmin hmax := by
    change Content.readInteger range { root := .scalar none .plain (Text.ofInt n), names := [] } = _
    simp only [Content.readInteger, Content.view, Content.view.bare, bearsValue, decide_true,
      Bool.true_or, if_true, int64?_ofInt hmin hmax]
  text s := rfl
  flag b := by cases b <;> rfl
  word allowed s h := by
    change Content.readWord allowed { root := .scalar none (styleOf s) s, names := [] } = _
    simp [Content.readWord, Content.view, Content.view.bare, tagWord?, h]
  null_isAbsent := rfl
  list_isAbsent ds := rfl
  list ds := by
    change Except.ok (Run.mk ((nodesOf ds).map _) true) = _
    rw [nodesOf_eq, List.map_map]
    rfl
  fields title fs := by
    change Except.ok (Fields.named ⟨(membersOf fs).map _, true⟩) = _
    rw [membersOf_eq, List.map_map]
    rfl

section Decode

theorem decode_of_parse {α : Type} [Readable α] {s : String} {content : Content}
    (h : parse s = (content, true)) : (decode s : Read α) = read content := by
  rw [decode, h]
  cases hread : (read content : Read α) <;> simp [bind, Except.bind, hread]

/-- Whatever is left out of a value when it is written, it comes back, if no name is too long. -/
theorem decode_shows {α : Type} [Readable α] [Outlined α] [Faithful α] (a : α) {d : Datum}
    (h : (outline a).Shows d) (hnames : ∀ name ∈ namesIn d, FitsKey name) :
    decode (render d) = .ok a := by
  rw [decode_of_parse (parse_render d hnames)]
  exact Faithful.recovers rendition a h

end Decode

/-- A type whose values are written with names that fit. -/
class FittingNames (α : Type) [Writable α] : Prop where
  fits (a : α) : ∀ name ∈ namesIn (write a), FitsKey name

theorem decode_write {α : Type} [Readable α] [Writable α] [Outlined α] [Faithful α] [Spares α]
    [FittingNames α] (a : α) : decode (render (write a)) = .ok a :=
  decode_shows a (Spares.shows a) (FittingNames.fits a)

section Names

instance : FittingNames Int32 := ⟨fun _ => nofun⟩
instance : FittingNames Int64 := ⟨fun _ => nofun⟩
instance : FittingNames String := ⟨fun _ => nofun⟩
instance : FittingNames Bool := ⟨fun _ => nofun⟩
instance : FittingNames ProviderScope := ⟨fun _ => nofun⟩

instance {α : Type} [Writable α] [FittingNames α] : FittingNames (List α) where
  fits as := by
    change ∀ name ∈ namesInItems (as.map write), FitsKey name
    induction as with
    | nil => exact nofun
    | cons a as ih => exact List.forall_mem_append.mpr ⟨FittingNames.fits a, ih⟩

/-- A record is written with the names of its own fields and those inside of them. -/
theorem fits_field {α : Type} [Writable α] [FittingNames α] {name : String} (hname : FitsKey name)
    (a : α) {fs : List (String × Datum)} (hfs : ∀ name ∈ namesInFields fs, FitsKey name) :
    ∀ other ∈ namesInFields ((name, write a) :: fs), FitsKey other :=
  List.forall_mem_cons.mpr ⟨hname, List.forall_mem_append.mpr ⟨FittingNames.fits a, hfs⟩⟩

theorem fits_nil : ∀ name ∈ namesInFields [], FitsKey name :=
  nofun

instance : FittingNames Version where
  fits v := fits_field (by decide) v.major (fits_field (by decide) v.minor fits_nil)

instance : FittingNames CustomParameter where
  fits p := fits_field (by decide) p.name (fits_field (by decide) p.value fits_nil)

instance : FittingNames ProviderQos where
  fits qos := by
    have honChange : FitsKey "supportsOnChangeSubscriptions" := by decide
    have hmore := fits_field (by decide : FitsKey "priority") qos.priority
      (fits_field (by decide : FitsKey "scope") qos.scope
        (fits_field honChange qos.supportsOnChange fits_nil))
    obtain ⟨parameters, priority, scope, onChange⟩ := qos
    cases parameters with
    | nil => exact hmore
    | cons p ps => exact fits_field (by decide) (p :: ps) hmore

instance : FittingNames Entry where
  fits e := fits_field (by decide) e.version (fits_field (by decide) e.domain
    (fits_field (by decide) e.interface (fits_field (by decide) e.participant
      (fits_field (by decide) e.qos (fits_field (by decide) e.lastSeen
        (fits_field (by decide) e.expiry (fits_field (by decide) e.publicKey
          (fits_field (by decide) e.isLocal fits_nil))))))))

instance : FittingNames Fixture where
  fits f := by
    have hmore := fits_field (by decide : FitsKey "entries") f.entries fits_nil
    obtain ⟨gbids, entries⟩ := f
    cases gbids with
    | none => exact hmore
    | some gbids => exact fits_field (by decide) gbids hmore

end Names

/-- The radios to try things out with survive being written, at every date that has a minute before
it. -/
theorem decode_sample (now : Int64) (h : Int64.minValue.toInt + 60000 ≤ now.toInt) :
    decode (render (write (Fixture.sample now))) = .ok (Fixture.sample now) ∧
      (Fixture.sample now).entries.map (·.lastSeen.toInt) = [now.toInt, now.toInt - 60000] := by
  have hmin : -2 ^ 63 + 60000 ≤ now.toInt := h
  have hmax := now.toInt_lt
  have hminute : (now - 60000).toInt = now.toInt - 60000 := by
    have hconstant : (60000 : Int64).toInt = 60000 := rfl
    rw [Int64.toInt_sub, hconstant]
    exact Int.bmod_eq_of_le (by omega) (by omega)
  exact ⟨decode_write _, by simp [Fixture.sample, hminute]⟩

/-- The first date with a minute before it, which is the first date of all. -/
theorem decode_earliestSample :
    Int64.minValue.toInt + 60000 ≤ (Int64.minValue + 60000).toInt ∧
      decode (render (write (Fixture.sample (Int64.minValue + 60000)))) =
        .ok (Fixture.sample (Int64.minValue + 60000)) ∧
      (Fixture.sample (Int64.minValue + 60000)).entries.map (·.lastSeen.toInt) =
        [-9223372036854715808, -9223372036854775808] := by
  have h : Int64.minValue.toInt + 60000 ≤ (Int64.minValue + 60000).toInt := by decide
  obtain ⟨hdecode, hdates⟩ := decode_sample (Int64.minValue + 60000) h
  exact ⟨h, hdecode, hdates⟩

end Arbiter.Yaml
