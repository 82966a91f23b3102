import InfraWeave.EnvCommon.ApiPolicy
import InfraWeave.EnvCommon.Publications

/-!
# Publishes that succeed

What a server publish has written once it returns without an error: for a module, a stack and a
policy the same, the zip and the rows of the record in every region.
-/

namespace InfraWeave
namespace EnvCommon

/-! ## Where a record is stored -/

namespace Item

/-- The zip of a record. -/
def zip : Item → Bucket × String
  | module record => (.modules, record.s3Key)
  | provider record => (.modules, record.s3Key)
  | policy record => (.policies, record.s3Key)

def puts : Item → String → List Put
  | module record => modulePuts record
  | provider record => providerPuts record
  | policy record => policyPuts record

end Item

theorem item_eq_of_mem_puts {item : Item} {v : String} {p : Put} (h : p ∈ item.puts v) :
    p.item = item := by
  cases item <;> rcases List.mem_pair.1 h with rfl | rfl <;> rfl

/-- What the writes of a publish that succeeded are: in every region the zip of the record and its
rows, and caches besides. -/
structure Published (item : Item) (regions : List String) (ws : List (String × Write)) : Prop where
  nonempty : regions ≠ []
  version : ∃ v, zeroPadSemver item.version 3 = some v
  zip : ∀ region ∈ regions, ∃ content, (region, .upload item.zip.1 item.zip.2 content) ∈ ws
  rows : ∀ region ∈ regions, ∀ v, zeroPadSemver item.version 3 = some v →
    (region, .transact (item.puts v)) ∈ ws
  only : ∀ region w, (region, w) ∈ ws → region ∈ regions ∧
    ((∃ content, w = .upload item.zip.1 item.zip.2 content) ∨
      (∃ v, zeroPadSemver item.version 3 = some v ∧ w = .transact (item.puts v)) ∨ w.IsCache)

/-- What an upload that succeeds writes in its region. -/
def Deposits {ε : Type} (item : Item) (region : String) (upload : Publishing ε Unit) : Prop :=
  upload.result = .ok () → ∃ content v, zeroPadSemver item.version 3 = some v ∧
    upload.writes =
      [(region, .upload item.zip.1 item.zip.2 content), (region, .transact (item.puts v))]

theorem deposits_of_steps {services : Services} {item : Item} {region zipBase64 : String}
    {upload : Publishing String Unit} {f : String → String}
    (hupload : upload = do
      (uploadFileBase64 services region item.zip.2 item.zip.1 zipBase64).mapError f
      let v ← .ofExcept (services.parsed (zeroPadSemver · 3) item.version)
      .write (region, .transact (item.puts v))) : Deposits item region upload := by
  intro hok
  rw [hupload] at hok ⊢
  obtain ⟨_, hzip, hrest⟩ := Outcome.result_bind_eq_ok.1 hok
  obtain ⟨v, hv, -⟩ := Outcome.result_bind_eq_ok.1 hrest
  obtain ⟨content, hcontent, -⟩ :=
    Outcome.result_bind_eq_ok.1 (Outcome.result_mapError_eq_ok.1 hzip)
  have hparsed : services.parsed (zeroPadSemver · 3) item.version = .ok v := hv
  refine ⟨content, v, parsed_eq_ok hparsed, ?_⟩
  rw [Outcome.writes_bind_of_ok hzip, Outcome.writes_bind_of_ok hv, Outcome.writes_mapError,
    uploadFileBase64, Outcome.writes_bind_of_ok hcontent]
  rfl

theorem deposits_mapError {ε ε' : Type} {item : Item} {region : String} {upload : Publishing ε Unit}
    (h : Deposits item region upload) (f : ε → ε') : Deposits item region (upload.mapError f) := by
  intro hok
  exact h (Outcome.result_mapError_eq_ok.1 hok)

theorem published_forEach {ε : Type} {item : Item} {upload : String → Publishing ε Unit}
    (h : ∀ region, Deposits item region (upload region)) {regions : List String}
    (hne : regions ≠ []) (hok : (Outcome.forEach regions upload).result = .ok ()) :
    Published item regions (Outcome.forEach regions upload).writes := by
  have hall := Outcome.result_of_forEach hok
  have hmem : ∀ region ∈ regions, ∀ w ∈ (upload region).writes,
      w ∈ (Outcome.forEach regions upload).writes := by
    intro region hregion w hw
    exact Outcome.mem_writes_forEach_of_ok hall hregion hw
  refine ⟨hne, ?_, ?_, ?_, ?_⟩
  · obtain ⟨region, hregion⟩ := List.exists_mem_of_ne_nil _ hne
    obtain ⟨_, v, hv, -⟩ := h region (hall region hregion)
    exact ⟨v, hv⟩
  · intro region hregion
    obtain ⟨content, v, -, hwrites⟩ := h region (hall region hregion)
    refine ⟨content, hmem region hregion _ ?_⟩
    rw [hwrites]
    exact List.mem_cons_self
  · intro region hregion v hv
    obtain ⟨content, v', hv', hwrites⟩ := h region (hall region hregion)
    obtain rfl : v' = v := Option.some.inj (hv'.symm.trans hv)
    refine hmem region hregion _ ?_
    rw [hwrites]
    exact List.mem_cons_of_mem _ List.mem_cons_self
  · intro region w hw
    obtain ⟨region', hregion', hw⟩ := Outcome.mem_writes_forEach hw
    obtain ⟨content, v, hv, hwrites⟩ := h region' (hall region' hregion')
    rw [hwrites] at hw
    rcases List.mem_pair.1 hw with heq | heq
    · obtain ⟨rfl, rfl⟩ := Prod.mk.inj heq
      exact ⟨hregion', Or.inl ⟨content, rfl⟩⟩
    · obtain ⟨rfl, rfl⟩ := Prod.mk.inj heq
      exact ⟨hregion', Or.inr (Or.inl ⟨v, hv, rfl⟩)⟩

theorem Published.add_caches {item : Item} {regions : List String} {ws cs : List (String × Write)}
    (h : Published item regions ws) (hcs : ∀ w ∈ cs, w.1 ∈ regions ∧ w.2.IsCache) :
    Published item regions (ws ++ cs) where
  nonempty := h.nonempty
  version := h.version
  zip region hregion := by
    obtain ⟨content, hmem⟩ := h.zip region hregion
    exact ⟨content, List.mem_append_left _ hmem⟩
  rows region hregion v hv := List.mem_append_left _ (h.rows region hregion v hv)
  only region w hw := by
    rcases List.mem_append.1 hw with hw | hw
    · exact h.only region w hw
    · have hcache := hcs _ hw
      exact ⟨hcache.1, Or.inr (Or.inr hcache.2)⟩

section

variable {services : Services} {reg : Registry} {handler : GenericCloudHandler}

theorem serverPublishModule_published {module : ModuleResp} {zipBase64 : String}
    (hok : (serverPublishModule services reg handler module zipBase64).result = .ok ()) :
    Published (.module module) handler.allRegions
      (serverPublishModule services reg handler module zipBase64).writes := by
  unfold serverPublishModule at hok ⊢
  split at hok
  · cases hok
  · rename_i hne
    rw [if_neg hne]
    obtain ⟨_, hlatest, hok⟩ := Outcome.result_bind_eq_ok.1 hok
    obtain ⟨_, hstack, hok⟩ := Outcome.result_bind_eq_ok.1 hok
    rw [Outcome.writes_bind_of_ok hlatest, Outcome.writes_bind_of_ok hstack]
    exact published_forEach (fun region => deposits_mapError (deposits_of_steps rfl) _) hne hok

theorem serverPublishStack_published {module : ModuleResp} {zipBase64 : String}
    (hok : (serverPublishStack services reg handler module zipBase64).result = .ok ()) :
    Published (.module module) handler.allRegions
      (serverPublishStack services reg handler module zipBase64).writes := by
  unfold serverPublishStack at hok ⊢
  split at hok
  · cases hok
  · rename_i hne
    rw [if_neg hne]
    obtain ⟨_, hlatest, hok⟩ := Outcome.result_bind_eq_ok.1 hok
    obtain ⟨_, hmodule, hok⟩ := Outcome.result_bind_eq_ok.1 hok
    obtain ⟨_, hzips, hok⟩ := Outcome.result_bind_eq_ok.1 hok
    rw [Outcome.writes_bind_of_ok hlatest, Outcome.writes_bind_of_ok hmodule,
      Outcome.writes_bind_of_ok hzips]
    refine (published_forEach (fun region => deposits_mapError (deposits_of_steps rfl) _) hne
      hzips).add_caches ?_
    intro w hw
    obtain ⟨region, hregion, hw⟩ := Outcome.mem_writes_forEach hw
    obtain ⟨provider, -, hw⟩ := Outcome.mem_writes_forEach hw
    obtain ⟨rfl, hcache⟩ := isCache_of_mem_uploadProviderCache hw
    exact ⟨hregion, hcache⟩

theorem serverPublishPolicy_published {policy : PolicyResp} {zipBase64 : String}
    (hok : (serverPublishPolicy services reg handler policy zipBase64).result = .ok ()) :
    Published (.policy policy) handler.allRegions
      (serverPublishPolicy services reg handler policy zipBase64).writes := by
  unfold serverPublishPolicy at hok ⊢
  split at hok
  · cases hok
  · rename_i hne
    rw [if_neg hne]
    obtain ⟨_, hnewest, hok⟩ := Outcome.result_bind_eq_ok.1 hok
    rw [Outcome.writes_bind_of_ok hnewest]
    exact published_forEach (fun region => deposits_of_steps rfl) hne hok

/-- The rows of a record are what a publish that succeeded changes in the tables. -/
theorem Published.item_applyAll {item : Item} {regions : List String}
    {ws : List (String × Write)} (h : Published item regions ws) {v : String}
    (hv : zeroPadSemver item.version 3 = some v) (reg : Registry) (region : String)
    (table : Table) (key : Key) :
    (reg.applyAll ws region).item table key =
      if region ∈ regions then (written (item.puts v) table key).or ((reg region).item table key)
      else (reg region).item table key := by
  split
  · rename_i hregion
    refine Registry.item_applyAll reg ?_ ⟨_, h.rows region hregion v hv, rfl⟩ table key
    intro w hw
    rcases (h.only region w hw).2 with ⟨content, rfl⟩ | ⟨v', hv', rfl⟩ | hcache
    · exact Or.inl rfl
    · obtain rfl : v' = v := Option.some.inj (hv'.symm.trans hv)
      exact Or.inr rfl
    · exact Or.inl (IsCache.puts hcache)
  · rename_i hregion
    refine Registry.item_applyAll_of_nil reg ?_ table key
    intro w hw
    exact absurd (h.only region w hw).1 hregion

end

end EnvCommon
end InfraWeave
