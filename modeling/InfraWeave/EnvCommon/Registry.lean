import InfraWeave.Defs.Module
import InfraWeave.Lib.Outcome
import InfraWeave.Utils.Versioning

/-!
# The registry

In each region the registry has the tables `modules` and `policies` and the buckets that hold the
zip files.  A row is kept as the record it was written from: serialising a record and reading it
back gives the record again.  Transactions write all their rows or none.
-/

namespace InfraWeave
namespace EnvCommon

inductive Table where
  | modules
  | policies
  deriving DecidableEq

inductive Bucket where
  | modules
  | policies
  | providers
  deriving DecidableEq

abbrev Content := List UInt8

structure Key where
  pk : String
  sk : String
  deriving DecidableEq

/-- The rows of a partition are ordered by their sort keys. -/
instance : LT Key :=
  ⟨fun a b => a.pk < b.pk ∨ (a.pk = b.pk ∧ a.sk < b.sk)⟩

instance : DecidableLT Key :=
  fun a b => inferInstanceAs (Decidable (a.pk < b.pk ∨ (a.pk = b.pk ∧ a.sk < b.sk)))

theorem Key.lt_iff {a b : Key} : a < b ↔ a.pk < b.pk ∨ (a.pk = b.pk ∧ a.sk < b.sk) :=
  Iff.rfl

instance : IsStrictTotalOrder Key (· < ·) where
  trichotomous := by
    rintro ⟨pk, sk⟩ ⟨pk', sk'⟩ h h'
    simp only [Key.lt_iff, not_or, not_and] at h h'
    obtain rfl : pk = pk' := String.le_antisymm (String.not_lt.1 h'.1) (String.not_lt.1 h.1)
    obtain rfl : sk = sk' :=
      String.le_antisymm (String.not_lt.1 (h'.2 rfl)) (String.not_lt.1 (h.2 rfl))
    rfl
  irrefl := fun a h => by
    rcases Key.lt_iff.1 h with h | ⟨-, h⟩
    · exact String.lt_irrefl _ h
    · exact String.lt_irrefl _ h
  trans := fun a b c hab hbc => by
    rcases Key.lt_iff.1 hab with h | ⟨h, hsk⟩
    · rcases Key.lt_iff.1 hbc with h' | ⟨h', -⟩
      · exact Or.inl (String.lt_trans h h')
      · exact Or.inl (h' ▸ h)
    · rcases Key.lt_iff.1 hbc with h' | ⟨h', hsk'⟩
      · exact Or.inl (h ▸ h')
      · exact Or.inr ⟨h.trans h', String.lt_trans hsk hsk'⟩

inductive Item where
  | module (record : ModuleResp)
  | provider (record : ProviderResp)
  | policy (record : PolicyResp)
  deriving DecidableEq

def Item.version : Item → String
  | module record => record.version
  | provider record => record.version
  | policy record => record.version

structure Put where
  table : Table
  key : Key
  item : Item
  deriving DecidableEq

inductive Write where
  | transact (puts : List Put)
  | upload (bucket : Bucket) (key : String) (content : Content)
  /-- `upload_file_url`: an object that is there already stays. -/
  | uploadIfAbsent (bucket : Bucket) (key : String) (content : Content)
  deriving DecidableEq

/-- What the publish paths use that is not part of the program. -/
structure Services where
  base64Decode : String → Except String Content
  semverError : String → String
  /-- The error of a row that is not a record of the kind that was asked for. -/
  mapError : Item → String
  /-- `get_provider_url_key`, which asks the provider registry. -/
  getProviderUrlKey : TfLockProvider → String → String → Except String (String × String)
  fetch : String → Except String Content

/-! ## State -/

structure RegionStore where
  rows : Table → List (Key × Item)
  objects : Bucket → String → Option Content

abbrev Registry := String → RegionStore

namespace RegionStore

def empty : RegionStore :=
  ⟨fun _ => [], fun _ _ => none⟩

def item (s : RegionStore) (table : Table) (key : Key) : Option Item :=
  (s.rows table).lookup key

def put (s : RegionStore) (p : Put) : RegionStore :=
  { s with
    rows := fun table =>
      if table = p.table then OrderedMap.insert p.key p.item (s.rows table) else s.rows table }

def upload (s : RegionStore) (bucket : Bucket) (key : String) (content : Content) : RegionStore :=
  { s with
    objects := fun b k => if b = bucket ∧ k = key then some content else s.objects b k }

def apply (s : RegionStore) : Write → RegionStore
  | .transact puts => puts.foldl put s
  | .upload bucket key content => s.upload bucket key content
  | .uploadIfAbsent bucket key content =>
      if (s.objects bucket key).isSome then s else s.upload bucket key content

end RegionStore

namespace Registry

def empty : Registry :=
  fun _ => .empty

/-- A write goes to one region. -/
def apply (reg : Registry) (w : String × Write) : Registry :=
  fun region => if region = w.1 then (reg region).apply w.2 else reg region

def applyAll (reg : Registry) (ws : List (String × Write)) : Registry :=
  ws.foldl apply reg

end Registry

/-! ## What a write changes -/

def Write.puts : Write → List Put
  | .transact puts => puts
  | _ => []

/-- The object that a write may change. -/
def Write.object : Write → Option (Bucket × String)
  | .transact _ => none
  | .upload bucket key _ => some (bucket, key)
  | .uploadIfAbsent bucket key _ => some (bucket, key)

/-- What a list of puts leaves at a key; the last put counts. -/
def written : List Put → Table → Key → Option Item
  | [], _, _ => none
  | p :: ps, table, key =>
      (written ps table key).or (if table = p.table ∧ key = p.key then some p.item else none)

theorem mem_of_written {puts : List Put} {table : Table} {key : Key} {item : Item}
    (h : written puts table key = some item) : ⟨table, key, item⟩ ∈ puts := by
  induction puts with
  | nil => cases h
  | cons p ps ih =>
      rcases Option.or_eq_some_iff.1 h with h | ⟨-, h⟩
      · exact List.mem_cons_of_mem _ (ih h)
      · split at h
        · rename_i hp
          obtain rfl := Option.some.inj h
          rcases hp with ⟨rfl, rfl⟩
          exact List.mem_cons_self
        · cases h

theorem written_isSome_of_mem {puts : List Put} {p : Put} (h : p ∈ puts) :
    ∃ item, written puts p.table p.key = some item := by
  induction puts with
  | nil => cases h
  | cons q ps ih =>
      rw [← Option.isSome_iff_exists, written, Option.isSome_or]
      rcases List.mem_cons.1 h with rfl | h
      · simp
      · obtain ⟨item, hitem⟩ := ih h
        simp [hitem]

namespace RegionStore

@[simp] theorem item_empty (table : Table) (key : Key) : empty.item table key = none := rfl

@[simp] theorem objects_put (s : RegionStore) (p : Put) : (s.put p).objects = s.objects := rfl

@[simp] theorem item_upload (s : RegionStore) (bucket : Bucket) (k : String) (content : Content)
    (table : Table) (key : Key) : (s.upload bucket k content).item table key = s.item table key :=
  rfl

theorem item_put (s : RegionStore) (p : Put) (table : Table) (key : Key) :
    (s.put p).item table key =
      if table = p.table ∧ key = p.key then some p.item else s.item table key := by
  unfold item put
  by_cases htable : table = p.table
  · simp [htable, OrderedMap.lookup_insert]
  · simp [htable]

theorem item_foldl_put (s : RegionStore) (puts : List Put) (table : Table) (key : Key) :
    (puts.foldl put s).item table key = (written puts table key).or (s.item table key) := by
  induction puts generalizing s with
  | nil => rfl
  | cons p ps ih =>
      rw [List.foldl_cons, ih, item_put, written]
      cases written ps table key with
      | some item => rfl
      | none => split <;> rfl

@[simp] theorem objects_foldl_put (s : RegionStore) (puts : List Put) :
    (puts.foldl put s).objects = s.objects := by
  induction puts generalizing s with
  | nil => rfl
  | cons p ps ih => rw [List.foldl_cons, ih, objects_put]

theorem item_apply (s : RegionStore) (w : Write) (table : Table) (key : Key) :
    (s.apply w).item table key = (written w.puts table key).or (s.item table key) := by
  cases w with
  | transact puts => exact item_foldl_put s puts table key
  | upload bucket k content => rfl
  | uploadIfAbsent bucket k content =>
      simp only [apply]
      split <;> rfl

theorem objects_apply_of_ne (s : RegionStore) {w : Write} {bucket : Bucket} {key : String}
    (h : w.object ≠ some (bucket, key)) : (s.apply w).objects bucket key = s.objects bucket key := by
  have hupload : ∀ b k c, some (b, k) ≠ some (bucket, key) →
      (s.upload b k c).objects bucket key = s.objects bucket key := by
    intro b k c hne
    refine if_neg ?_
    rintro ⟨rfl, rfl⟩
    exact hne rfl
  cases w with
  | transact puts => simp [apply]
  | upload b k c => exact hupload b k c h
  | uploadIfAbsent b k c =>
      simp only [apply]
      split
      · rfl
      · exact hupload b k c h

end RegionStore

namespace Registry

theorem applyAll_cons (reg : Registry) (w : String × Write) (ws : List (String × Write)) :
    reg.applyAll (w :: ws) = (reg.apply w).applyAll ws := rfl

theorem apply_of_ne (reg : Registry) {w : String × Write} {region : String}
    (h : region ≠ w.1) : reg.apply w region = reg region :=
  if_neg h

theorem apply_self (reg : Registry) (region : String) (w : Write) :
    reg.apply (region, w) region = (reg region).apply w :=
  if_pos rfl

theorem item_applyAll_of_nil (reg : Registry) {ws : List (String × Write)} {region : String}
    (hputs : ∀ w, (region, w) ∈ ws → w.puts = []) (table : Table) (key : Key) :
    (reg.applyAll ws region).item table key = (reg region).item table key := by
  induction ws generalizing reg with
  | nil => rfl
  | cons w ws ih =>
      rw [applyAll_cons, ih (reg.apply w) fun w' h => hputs w' (List.mem_cons_of_mem _ h)]
      rcases w with ⟨target, w⟩
      by_cases hregion : region = target
      · subst hregion
        rw [apply_self, RegionStore.item_apply, hputs w List.mem_cons_self]
        rfl
      · rw [apply_of_ne reg hregion]

/-- When the writes of a region put the same rows whenever they put any, these are the rows that
have changed there. -/
theorem item_applyAll (reg : Registry) {ws : List (String × Write)} {region : String}
    {puts : List Put} (hputs : ∀ w, (region, w) ∈ ws → w.puts = [] ∨ w.puts = puts)
    (hsome : ∃ w, (region, w) ∈ ws ∧ w.puts = puts) (table : Table) (key : Key) :
    (reg.applyAll ws region).item table key =
      (written puts table key).or ((reg region).item table key) := by
  induction ws generalizing reg with
  | nil =>
      obtain ⟨w, hw, -⟩ := hsome
      cases hw
  | cons w ws ih =>
      have hputs' := fun w' h => hputs w' (List.mem_cons_of_mem _ h)
      rw [applyAll_cons]
      rcases w with ⟨target, w⟩
      by_cases hlater : ∃ w', (region, w') ∈ ws ∧ w'.puts = puts
      · rw [ih (reg.apply (target, w)) hputs' hlater]
        by_cases hregion : region = target
        · subst hregion
          rw [apply_self, RegionStore.item_apply]
          rcases hputs w List.mem_cons_self with h | h
          · rw [h]
            rfl
          · -- Writing the same rows again changes nothing.
            rw [h]
            cases written puts table key <;> rfl
        · rw [apply_of_ne reg hregion]
      · -- The rows are put by the first write only.
        have hnil : ∀ w', (region, w') ∈ ws → w'.puts = [] := fun w' h =>
          (hputs' w' h).resolve_right fun hsame => hlater ⟨w', h, hsame⟩
        obtain ⟨w', hmem, hsame⟩ := hsome
        rcases List.mem_cons.1 hmem with heq | hmem
        · obtain ⟨rfl, rfl⟩ := Prod.mk.inj heq
          rw [item_applyAll_of_nil _ hnil, apply_self, RegionStore.item_apply, hsame]
        · exact absurd ⟨w', hmem, hsame⟩ hlater

theorem objects_applyAll_of_ne (reg : Registry) {ws : List (String × Write)} {region : String}
    {bucket : Bucket} {key : String}
    (h : ∀ w, (region, w) ∈ ws → w.object ≠ some (bucket, key)) :
    (reg.applyAll ws region).objects bucket key = (reg region).objects bucket key := by
  induction ws generalizing reg with
  | nil => rfl
  | cons w ws ih =>
      rw [applyAll_cons, ih (reg.apply w) fun w' hw' => h w' (List.mem_cons_of_mem _ hw')]
      unfold apply
      split
      · rename_i hregion
        refine RegionStore.objects_apply_of_ne _ (h w.2 ?_)
        rw [hregion]
        exact List.mem_cons_self
      · rfl

end Registry

/-! ## Keys and reads -/

def moduleId (module track : String) : String :=
  "MODULE#" ++ getModuleIdentifier module track

def providerId (provider : String) : String :=
  "PROVIDER#" ++ provider

def getLatestModuleVersionQuery (module track : String) : Key :=
  ⟨"LATEST_MODULE", moduleId module track⟩

def getLatestStackVersionQuery (stack track : String) : Key :=
  ⟨"LATEST_STACK", moduleId stack track⟩

def getLatestProviderVersionQuery (provider : String) : Key :=
  ⟨"LATEST_PROVIDER", providerId provider⟩

/-- The source unwraps the sort key, so a text that is no version stops the request. -/
def getModuleVersionQuery (module track version : String) : Option Key :=
  (zeroPadSemver version 3).map fun v => ⟨moduleId module track, "VERSION#" ++ v⟩

namespace Services

variable (services : Services)

def parsed {α : Type} (parse : String → Option α) (version : String) : Except String α :=
  match parse version with
  | some v => .ok v
  | none => .error (services.semverError version)

/-- `_get_module_optional` for a key. -/
def getModule (s : RegionStore) (key : Key) : Except String (Option ModuleResp) :=
  match s.item .modules key with
  | none => .ok none
  | some (.module record) => .ok (some record)
  | some item => .error (services.mapError item)

/-- `_get_provider_optional` for a key. -/
def getProvider (s : RegionStore) (key : Key) : Except String (Option ProviderResp) :=
  match s.item .modules key with
  | none => .ok none
  | some (.provider record) => .ok (some record)
  | some item => .error (services.mapError item)

def getLatestModuleVersion (s : RegionStore) (module track : String) :
    Except String (Option ModuleResp) :=
  services.getModule s (getLatestModuleVersionQuery module track)

def getLatestStackVersion (s : RegionStore) (stack track : String) :
    Except String (Option ModuleResp) :=
  services.getModule s (getLatestStackVersionQuery stack track)

def getLatestProviderVersion (s : RegionStore) (provider : String) :
    Except String (Option ProviderResp) :=
  services.getProvider s (getLatestProviderVersionQuery provider)

/-- `get_module_version`, which is also `get_stack_version`. -/
def getModuleVersion (s : RegionStore) (module track version : String) :
    Except String (Option ModuleResp) :=
  match getModuleVersionQuery module track version with
  | some key => services.getModule s key
  | none => .error (services.semverError version)

end Services

theorem getModule_eq_ok {services : Services} {s : RegionStore} {key : Key}
    {found : Option ModuleResp} (h : services.getModule s key = .ok found) :
    s.item .modules key = found.map Item.module := by
  unfold Services.getModule at h
  split at h
  · rename_i hitem
    rw [hitem, ← Except.ok.inj h]
    rfl
  · rename_i hitem
    rw [hitem, ← Except.ok.inj h]
    rfl
  · cases h

theorem getProvider_eq_ok {services : Services} {s : RegionStore} {key : Key}
    {found : Option ProviderResp} (h : services.getProvider s key = .ok found) :
    s.item .modules key = found.map Item.provider := by
  unfold Services.getProvider at h
  split at h
  · rename_i hitem
    rw [hitem, ← Except.ok.inj h]
    rfl
  · rename_i hitem
    rw [hitem, ← Except.ok.inj h]
    rfl
  · cases h

end EnvCommon
end InfraWeave
