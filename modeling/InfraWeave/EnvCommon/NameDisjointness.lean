import InfraWeave.EnvCommon.Catalogue

/-!
# Modules and stacks under one name

Modules and stacks share the partitions of their versions; the records of stacks have stack data.
The name checks ask for the latest version of the other kind on the empty track, where nothing is
published, so that they do not keep the names apart.  Names stay apart in the runs in which every
publish that passes its checks has a name that is new to the other kind.
-/

namespace InfraWeave
namespace EnvCommon

/-- A row of the region holds the record. -/
def Holds (s : RegionStore) (record : ModuleResp) : Prop :=
  ∃ key, s.item .modules key = some (.module record)

/-- No name is stored both as a module and as a stack. -/
def NamesDisjoint (reg : Registry) : Prop :=
  ∀ region record record', Holds (reg region) record → Holds (reg region) record' →
    record.module = record'.module → kindOf record = kindOf record'

/-- No row of a version has gone from a module to a stack or the other way. -/
def KindsKept (reg reg' : Registry) : Prop :=
  ∀ region key record, key.IsModuleVersion →
    (reg region).item .modules key = some (.module record) →
    ∃ record', (reg' region).item .modules key = some (.module record') ∧
      kindOf record' = kindOf record

/-- No record of the other kind has the name of the release, or the row of its version. -/
def NewToOtherKind (regions : List String) (reg : Registry) : Release → Prop
  | .module route record => ∀ region ∈ regions,
      (∀ other, Holds (reg region) other → other.module = record.module →
        kindOf other = kindOf record) ∧
      ∀ v other, zeroPadSemver record.version 3 = some v →
        (reg region).item .modules ((Release.module route record).versionKey v) =
          some (.module other) → kindOf other = kindOf record
  | .provider _ => True

/-- A publish that passes its checks is new to the other kind. -/
def KeepsNamesApart (services : Services) (c : Catalogue)
    (call : GenericCloudHandler × Publish) : Prop :=
  ∀ release, call.2.Offers services (c.registry call.1.region) release →
    Admitted services (c.registry call.1.region) release →
    NewToOtherKind call.1.allRegions c.registry release

theorem namesDisjoint_empty : NamesDisjoint Registry.empty := by
  rintro region record record' ⟨key, hrow⟩
  cases hrow

/-- A record that is held after a release has been put is that of the release, or was held. -/
theorem RowsPut.holds {release : Release} {v : String} {regions : List String}
    {reg reg' : Registry} (h : RowsPut release v regions reg reg') {region : String}
    {record : ModuleResp} (hrecord : Holds (reg' region) record) :
    (region ∈ regions ∧ release.item = .module record) ∨ Holds (reg region) record := by
  obtain ⟨key, hrow⟩ := hrecord
  rw [h region .modules key] at hrow
  split at hrow
  · rename_i hput
    exact Or.inl ⟨hput.1, Option.some.inj hrow⟩
  · exact Or.inr ⟨key, hrow⟩

theorem NewToOtherKind.kindOf_eq {regions : List String} {reg : Registry} {release : Release}
    (h : NewToOtherKind regions reg release) {region : String} (hregion : region ∈ regions)
    {record other : ModuleResp} (hitem : release.item = .module record)
    (hother : Holds (reg region) other) (hname : other.module = record.module) :
    kindOf other = kindOf record := by
  cases release with
  | module route record' =>
      obtain rfl : record' = record := by simpa [Release.item] using hitem
      exact (h region hregion).1 other hother hname
  | provider record' => cases hitem

theorem namesDisjoint_put {release : Release} {v : String} {regions : List String}
    {reg reg' : Registry} (hput : RowsPut release v regions reg reg')
    (hnew : NewToOtherKind regions reg release) (hdisjoint : NamesDisjoint reg) :
    NamesDisjoint reg' := by
  intro region record record' hrecord hrecord' hname
  rcases hput.holds hrecord with ⟨hregion, hitem⟩ | hold
  · rcases hput.holds hrecord' with ⟨-, hitem'⟩ | hold'
    · obtain rfl : record = record' := by simpa [hitem] using hitem'
      rfl
    · exact (hnew.kindOf_eq hregion hitem hold' hname.symm).symm
  · rcases hput.holds hrecord' with ⟨hregion, hitem'⟩ | hold'
    · exact hnew.kindOf_eq hregion hitem' hold hname
    · exact hdisjoint region record record' hold hold' hname

theorem kindsKept_put {release : Release} {v : String} {regions : List String}
    {reg reg' : Registry} (hput : RowsPut release v regions reg reg')
    (hv : zeroPadSemver release.version 3 = some v) (hnew : NewToOtherKind regions reg release) :
    KindsKept reg reg' := by
  intro region key record hkey hrow
  rw [hput.version hkey]
  split
  · rename_i hsame
    obtain ⟨hregion, rfl⟩ := hsame
    cases release with
    | module route record' =>
        exact ⟨record', rfl, ((hnew region hregion).2 v record hv hrow).symm⟩
    | provider record' => exact absurd hkey (not_isModuleVersion_provider record' v)
  · exact ⟨record, hrow, rfl⟩

theorem namesApart_publish {services : Services} {c : Catalogue}
    {call : GenericCloudHandler × Publish} (hok : KeepsNamesApart services c call)
    (hdisjoint : NamesDisjoint c.registry) :
    NamesDisjoint (c.publish services call).registry ∧
      KindsKept c.registry (c.publish services call).registry := by
  obtain ⟨handler, op⟩ := call
  rcases publish_cases services c handler op with
    ⟨-, hitems⟩ | ⟨release, v, hoffers, hadmitted, hv, -, hput⟩
  · have hholds : ∀ region record, Holds ((c.publish services (handler, op)).registry region)
        record → Holds (c.registry region) record := by
      rintro region record ⟨key, hrow⟩
      exact ⟨key, (hitems region .modules key).symm.trans hrow⟩
    refine ⟨fun region record record' hrecord hrecord' => ?_, fun region key record _ hrow => ?_⟩
    · exact hdisjoint region record record' (hholds _ _ hrecord) (hholds _ _ hrecord')
    · exact ⟨record, (hitems region .modules key).trans hrow, rfl⟩
  · have hnew := hok release hoffers hadmitted
    exact ⟨namesDisjoint_put hput hnew hdisjoint, kindsKept_put hput hv hnew⟩

def webStack (track version : String) : ModuleResp :=
  { webModule track version with moduleType := "stack", stackData := some ⟨[]⟩ }

end EnvCommon
end InfraWeave
