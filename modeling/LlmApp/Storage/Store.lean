/-
# The desktop store

`RedbStorage` over any database that keeps what redb documents (`Redb.Lawful`): a
table of settings with one key and a table of catalogue entries by name, both of
encoded records. The store is its catalogue, encoded: whatever is called and
whichever operations of the database fail, every call is a step of the catalogue
(`call_refines`), so no record that the store has written is ever refused.

Key definitions: `RedbStorage.call`, `Catalogue`, `Catalogue.Step`, `Catalogue.StoredIn`.
Key theorems: `call_refines`, `run_refines`, `run_created`.
-/
import LlmApp.Storage.Redb

namespace LlmApp

/-! ### The store -/

def settingsKey : String := "application"
def settingsTable : String := "application_settings_v1"
def modelsTable : String := "model_catalogue_v1"

namespace RedbStorage

variable {δ ω ρ ε : Type} (redb : Redb δ ω ρ ε)

/-- `RedbStorage::open`. -/
def openDatabase : Fallible δ (StoreError ε) Unit := do
  Redb.attempt redb.create
  redb.write do
    Redb.attempt (redb.openTable settingsTable)
    Redb.attempt (redb.openTable modelsTable)

def insert (definition key : String) (value : List UInt8) : Fallible δ (StoreError ε) Unit :=
  redb.write do
    Redb.attempt (redb.openTable definition)
    Redb.attempt (redb.insert definition key value)

def get (definition key : String) : Fallible δ (StoreError ε) (Option (List UInt8)) :=
  redb.read fun read => do
    (redb.openReadTable definition read).mapError .database
    (redb.get definition key read).mapError .database

def saveSettings (settings : ApplicationSettings) : Fallible δ (StoreError ε) Unit := do
  let encoded ← Fallible.check fun _ => Except.mapError StoreError.record do
    settings.validate
    encodeSettings settings
  insert redb settingsTable settingsKey encoded

def loadSettings : Fallible δ (StoreError ε) (Option ApplicationSettings) := do
  match ← get redb settingsTable settingsKey with
  | none => return none
  | some bytes => Fallible.check fun _ => ((decodeSettings bytes).map some).mapError .record

def upsertModel (record : ModelRecord) : Fallible δ (StoreError ε) Unit := do
  let encoded ← Fallible.check fun _ => Except.mapError StoreError.record do
    record.validate
    encodeModel record
  insert redb modelsTable record.name encoded

def loadModel (name : String) : Fallible δ (StoreError ε) (Option ModelRecord) := do
  Fallible.check fun _ => (validateNonEmpty name .modelName).mapError .record
  match ← get redb modelsTable name with
  | none => return none
  | some bytes => Fallible.check fun _ => ((decodeModel bytes).map some).mapError .record

def removeModel (name : String) : Fallible δ (StoreError ε) Bool := do
  Fallible.check fun _ => (validateNonEmpty name .modelName).mapError .record
  redb.write do
    Redb.attempt (redb.openTable modelsTable)
    let removed ← Redb.attempt (redb.remove modelsTable name)
    return removed.isSome

/-- An entry of the iterator, read. -/
def readEntry (entry : Except ε (String × List UInt8)) : Except (StoreError ε) ModelRecord := do
  let (_, value) ← entry.mapError StoreError.database
  (decodeModel value).mapError .record

def listModels : Fallible δ (StoreError ε) (List ModelRecord) :=
  redb.read fun read => do
    (redb.openReadTable modelsTable read).mapError .database
    let iterator ← (redb.iter modelsTable read).mapError .database
    iterator.mapM readEntry

end RedbStorage

/-! ### Calls -/

inductive StorageCall where
  | openDatabase
  | saveSettings (settings : ApplicationSettings)
  | loadSettings
  | upsertModel (record : ModelRecord)
  | loadModel (name : String)
  | removeModel (name : String)
  | listModels
deriving DecidableEq, Repr

inductive StorageResult (ε : Type) where
  | done (result : Except (StoreError ε) Unit)
  | settings (result : Except (StoreError ε) (Option ApplicationSettings))
  | model (result : Except (StoreError ε) (Option ModelRecord))
  | removed (result : Except (StoreError ε) Bool)
  | models (result : Except (StoreError ε) (List ModelRecord))
deriving DecidableEq

namespace RedbStorage

variable {δ ω ρ ε : Type} (redb : Redb δ ω ρ ε)

def call : StorageCall → δ → StorageResult ε × δ
  | .openDatabase, db => (openDatabase redb db).map .done id
  | .saveSettings settings, db => (saveSettings redb settings db).map .done id
  | .loadSettings, db => (loadSettings redb db).map .settings id
  | .upsertModel record, db => (upsertModel redb record db).map .done id
  | .loadModel name, db => (loadModel redb name db).map .model id
  | .removeModel name, db => (removeModel redb name db).map .removed id
  | .listModels, db => (listModels redb db).map .models id

def run : List StorageCall → δ → List (StorageResult ε) × δ
  | [], db => ([], db)
  | call :: calls, db =>
    let (result, db) := RedbStorage.call redb call db
    let (results, db) := run calls db
    (result :: results, db)

end RedbStorage

/-! ### The catalogue -/

/-- The first string that has no room in a record. -/
def tooLong (values : List String) : Option StorageError :=
  values.findSome? fun value => if u32Max < (utf8 value).length then some (.stringTooLong (utf8 value).length) else none

/-- The settings can be stored. -/
def ApplicationSettings.admit (settings : ApplicationSettings) : Except StorageError Unit := do
  settings.validate
  match tooLong [settings.defaultRepository, settings.defaultRevision] with
  | some e => throw e
  | none => return ()

/-- The record can be stored. -/
def ModelRecord.admit (record : ModelRecord) : Except StorageError Unit := do
  record.validate
  match tooLong [record.name, record.repository, record.revision] with
  | some e => throw e
  | none => return ()

/-- What the store is for: settings, if any were saved, and records by name. -/
structure Catalogue where
  settings : Option ApplicationSettings
  models : OrdMap String ModelRecord
  settings_admitted : ∀ s, settings = some s → s.admit = .ok ()
  models_admitted : ∀ name record, models.get? name = some record → record.name = name ∧ record.admit = .ok ()

namespace Catalogue

variable (catalogue : Catalogue)

def created : Catalogue := ⟨none, .empty, nofun, nofun⟩

def save (settings : ApplicationSettings) (h : settings.admit = .ok ()) : Catalogue where
  settings := some settings
  models := catalogue.models
  settings_admitted s hs := by
    cases hs
    exact h
  models_admitted := catalogue.models_admitted

def upsert (record : ModelRecord) (h : record.admit = .ok ()) : Catalogue where
  settings := catalogue.settings
  models := catalogue.models.insert record.name record
  settings_admitted := catalogue.settings_admitted
  models_admitted name r hr := by
    rw [OrdMap.get?_insert] at hr
    split_ifs at hr with hname
    · cases hr
      exact ⟨hname.symm, h⟩
    · exact catalogue.models_admitted name r hr

def remove (name : String) : Catalogue where
  settings := catalogue.settings
  models := catalogue.models.erase name
  settings_admitted := catalogue.settings_admitted
  models_admitted _ _ hr := catalogue.models_admitted _ _ (OrdMap.get?_of_erase hr)

end Catalogue

variable {δ ω ρ ε : Type}

/-- What each call is meant to do. A write that the database fails is done or it is not. -/
inductive Catalogue.Step (catalogue : Catalogue) : StorageCall → StorageResult ε → Catalogue → Prop
  | opened : Step catalogue .openDatabase (.done (.ok ())) catalogue
  | openFailed (e : ε) : Step catalogue .openDatabase (.done (.error (.database e))) catalogue
  | saved {settings : ApplicationSettings} (h : settings.admit = .ok ()) :
      Step catalogue (.saveSettings settings) (.done (.ok ())) (catalogue.save settings h)
  | saveRefused {settings : ApplicationSettings} {e : StorageError} (h : settings.admit = .error e) :
      Step catalogue (.saveSettings settings) (.done (.error (.record e))) catalogue
  | saveFailed {settings : ApplicationSettings} (h : settings.admit = .ok ()) (e : ε) {after : Catalogue}
      (hafter : after = catalogue ∨ after = catalogue.save settings h) :
      Step catalogue (.saveSettings settings) (.done (.error (.database e))) after
  | settingsLoaded : Step catalogue .loadSettings (.settings (.ok catalogue.settings)) catalogue
  | settingsFailed (e : ε) : Step catalogue .loadSettings (.settings (.error (.database e))) catalogue
  | upserted {record : ModelRecord} (h : record.admit = .ok ()) :
      Step catalogue (.upsertModel record) (.done (.ok ())) (catalogue.upsert record h)
  | upsertRefused {record : ModelRecord} {e : StorageError} (h : record.admit = .error e) :
      Step catalogue (.upsertModel record) (.done (.error (.record e))) catalogue
  | upsertFailed {record : ModelRecord} (h : record.admit = .ok ()) (e : ε) {after : Catalogue}
      (hafter : after = catalogue ∨ after = catalogue.upsert record h) :
      Step catalogue (.upsertModel record) (.done (.error (.database e))) after
  | modelLoaded {name : String} (h : validateNonEmpty name .modelName = .ok ()) :
      Step catalogue (.loadModel name) (.model (.ok (catalogue.models.get? name))) catalogue
  | loadRefused {name : String} {e : StorageError} (h : validateNonEmpty name .modelName = .error e) :
      Step catalogue (.loadModel name) (.model (.error (.record e))) catalogue
  | loadFailed {name : String} (h : validateNonEmpty name .modelName = .ok ()) (e : ε) :
      Step catalogue (.loadModel name) (.model (.error (.database e))) catalogue
  | removed {name : String} (h : validateNonEmpty name .modelName = .ok ()) :
      Step catalogue (.removeModel name) (.removed (.ok (catalogue.models.contains name))) (catalogue.remove name)
  | removeRefused {name : String} {e : StorageError} (h : validateNonEmpty name .modelName = .error e) :
      Step catalogue (.removeModel name) (.removed (.error (.record e))) catalogue
  | removeFailed {name : String} (h : validateNonEmpty name .modelName = .ok ()) (e : ε) {after : Catalogue}
      (hafter : after = catalogue ∨ after = catalogue.remove name) :
      Step catalogue (.removeModel name) (.removed (.error (.database e))) after
  | listed : Step catalogue .listModels (.models (.ok catalogue.models.values)) catalogue
  | listFailed (e : ε) : Step catalogue .listModels (.models (.error (.database e))) catalogue

/-- The calls of a run, each a step. -/
inductive Catalogue.Run : Catalogue → List StorageCall → List (StorageResult ε) → Catalogue → Prop
  | nil (catalogue : Catalogue) : Run catalogue [] [] catalogue
  | cons {before middle after : Catalogue} {call : StorageCall} {result : StorageResult ε} {calls : List StorageCall}
      {results : List (StorageResult ε)} (hstep : before.Step call result middle) (hrest : Run middle calls results after) :
      Run before (call :: calls) (result :: results) after

/-- A read fails with the database, or for a name that is blank. -/
def StorageResult.Readable : StorageResult ε → Prop
  | .settings (.error e) => e.IsDatabase
  | .model (.error e) => e.IsDatabase ∨ e = .record (.invalidField .modelName)
  | .models (.error e) => e.IsDatabase
  | _ => True

theorem Catalogue.Step.readable {catalogue after : Catalogue} {call : StorageCall} {result : StorageResult ε}
    (h : catalogue.Step call result after) : result.Readable := by
  cases h with
  | settingsFailed e => exact ⟨e, rfl⟩
  | loadRefused h =>
    obtain ⟨-, rfl⟩ := Except.failIf_eq_error.mp h
    exact Or.inr rfl
  | loadFailed h e => exact Or.inl ⟨e, rfl⟩
  | listFailed e => exact ⟨e, rfl⟩
  | _ => exact trivial

theorem Catalogue.Run.readable {catalogue after : Catalogue} {calls : List StorageCall} {results : List (StorageResult ε)}
    (h : catalogue.Run calls results after) : ∀ result ∈ results, result.Readable := by
  induction h with
  | nil => exact fun _ hresult => absurd hresult List.not_mem_nil
  | cons hstep _ ih =>
    intro result hresult
    obtain rfl | hresult := List.mem_cons.mp hresult
    · exact hstep.readable
    · exact ih result hresult

/-! ### What is stored of a catalogue -/

def ApplicationSettings.bytes (settings : ApplicationSettings) : List UInt8 := (encodeSettings settings).toOption.getD []

def ModelRecord.bytes (record : ModelRecord) : List UInt8 := (encodeModel record).toOption.getD []

/-- The entries of the catalogue, encoded. -/
def Catalogue.rows (catalogue : Catalogue) : List (String × List UInt8) :=
  catalogue.models.entries.map fun entry => (entry.1, entry.2.bytes)

/-- The tables are the catalogue, encoded. -/
structure Catalogue.StoredIn (catalogue : Catalogue) (tables : Tables) : Prop where
  settings : tables settingsTable = match catalogue.settings with
    | none => .empty
    | some settings => OrdMap.empty.insert settingsKey settings.bytes
  models : tables modelsTable = catalogue.models.mapValues fun _ record => record.bytes

theorem encodeString_eq (output : List UInt8) (value : String) : encodeString output value =
    if u32Max < (utf8 value).length then .error (.stringTooLong (utf8 value).length)
    else .ok (output ++ toLe 4 (utf8 value).length ++ utf8 value) := by
  unfold encodeString Except.failIf
  split_ifs <;> rfl

/-- Encoding fails for the first string that is too long, and for nothing else. -/
theorem encodeModel_cases (record : ModelRecord) : encodeModel record =
    match tooLong [record.name, record.repository, record.revision] with
    | some e => .error e
    | none => .ok record.bytes := by
  unfold ModelRecord.bytes encodeModel tooLong
  simp only [encodeString_eq, List.findSome?_cons, List.findSome?_nil]
  by_cases hname : u32Max < (utf8 record.name).length
  · simp [hname]
  · by_cases hrepository : u32Max < (utf8 record.repository).length
    · simp [hname, hrepository]
    · by_cases hrevision : u32Max < (utf8 record.revision).length
      · simp [hname, hrepository, hrevision]
      · simp [hname, hrepository, hrevision, pure, Except.pure, Except.toOption]

theorem encodeSettings_cases (settings : ApplicationSettings) : encodeSettings settings =
    match tooLong [settings.defaultRepository, settings.defaultRevision] with
    | some e => .error e
    | none => .ok settings.bytes := by
  unfold ApplicationSettings.bytes encodeSettings tooLong
  simp only [encodeString_eq, List.findSome?_cons, List.findSome?_nil]
  by_cases hrepository : u32Max < (utf8 settings.defaultRepository).length
  · simp [hrepository]
  · by_cases hrevision : u32Max < (utf8 settings.defaultRevision).length
    · simp [hrepository, hrevision]
    · simp [hrepository, hrevision, pure, Except.pure, Except.toOption]

theorem ModelRecord.encode_eq (record : ModelRecord) :
    (do record.validate; encodeModel record) = record.admit.map fun _ => record.bytes := by
  unfold ModelRecord.admit
  rw [encodeModel_cases]
  cases record.validate with
  | error e => rfl
  | ok => cases tooLong [record.name, record.repository, record.revision] <;> rfl

theorem ApplicationSettings.encode_eq (settings : ApplicationSettings) :
    (do settings.validate; encodeSettings settings) = settings.admit.map fun _ => settings.bytes := by
  unfold ApplicationSettings.admit
  rw [encodeSettings_cases]
  cases settings.validate with
  | error e => rfl
  | ok => cases tooLong [settings.defaultRepository, settings.defaultRevision] <;> rfl

/-- What is stored of a record is read back as the record. -/
theorem decodeModel_bytes {record : ModelRecord} (h : record.admit = .ok ()) : decodeModel record.bytes = .ok record := by
  have hencode := record.encode_eq
  rw [h] at hencode
  obtain ⟨_, hvalid, hbytes⟩ := Except.bind_eq_ok.mp hencode
  obtain ⟨code, hcode, heq⟩ := (encodeModel_eq_ok record record.bytes).mp hbytes
  exact (decodeRecord_eq_ok modelFields (by decide +kernel)).mpr ⟨⟨code, hcode, heq⟩, hvalid⟩

theorem decodeSettings_bytes {settings : ApplicationSettings} (h : settings.admit = .ok ()) :
    decodeSettings settings.bytes = .ok settings := by
  have hencode := settings.encode_eq
  rw [h] at hencode
  obtain ⟨_, hvalid, hbytes⟩ := Except.bind_eq_ok.mp hencode
  obtain ⟨code, hcode, heq⟩ := (encodeSettings_eq_ok settings settings.bytes).mp hbytes
  exact (decodeRecord_eq_ok settingsFields (by decide +kernel)).mpr ⟨⟨code, hcode, heq⟩, hvalid⟩

/-! ### Updates of the tables -/

section Tables

variable {catalogue : Catalogue} {tables : Tables} {settings : ApplicationSettings} {record : ModelRecord}

theorem Catalogue.StoredIn.save (h : catalogue.StoredIn tables) (hadmitted : settings.admit = .ok ()) :
    (catalogue.save settings hadmitted).StoredIn (Function.update tables settingsTable
      ((tables settingsTable).insert settingsKey settings.bytes)) where
  settings := by
    rw [Function.update_self, h.settings]
    cases catalogue.settings with
    | none => rfl
    | some s => exact OrdMap.insert_insert ..
  models := by
    rw [Function.update_of_ne (by decide)]
    exact h.models

theorem Catalogue.StoredIn.upsert (h : catalogue.StoredIn tables) (hadmitted : record.admit = .ok ()) :
    (catalogue.upsert record hadmitted).StoredIn (Function.update tables modelsTable
      ((tables modelsTable).insert record.name record.bytes)) where
  settings := by
    rw [Function.update_of_ne (by decide)]
    exact h.settings
  models := by
    rw [Function.update_self, h.models]
    refine OrdMap.ext_get? fun k => ?_
    by_cases hk : k = record.name <;> simp [Catalogue.upsert, hk]

theorem Catalogue.StoredIn.remove (h : catalogue.StoredIn tables) (name : String) :
    (catalogue.remove name).StoredIn (Function.update tables modelsTable ((tables modelsTable).erase name)) where
  settings := by
    rw [Function.update_of_ne (by decide)]
    exact h.settings
  models := by
    rw [Function.update_self, h.models]
    refine OrdMap.ext_get? fun k => ?_
    by_cases hk : k = name <;> simp [Catalogue.remove, hk]

theorem Catalogue.StoredIn.get? (h : catalogue.StoredIn tables) (name : String) :
    (tables modelsTable).get? name = (catalogue.models.get? name).map ModelRecord.bytes := by
  rw [h.models]
  exact OrdMap.get?_mapValues ..

theorem Catalogue.StoredIn.getSettings (h : catalogue.StoredIn tables) :
    (tables settingsTable).get? settingsKey = catalogue.settings.map ApplicationSettings.bytes := by
  rw [h.settings]
  cases catalogue.settings with
  | none => rfl
  | some settings => exact OrdMap.get?_insert_self ..

theorem Catalogue.StoredIn.entries (h : catalogue.StoredIn tables) :
    (tables modelsTable).entries = catalogue.rows := by
  rw [h.models]
  rfl

end Tables

/-! ### Each call -/

theorem map_const_eq_ok {ε α : Type} {x : Except ε Unit} {a b : α} (h : (x.map fun _ => a) = .ok b) :
    x = .ok () ∧ b = a := by
  cases x with
  | ok u => exact ⟨rfl, (Except.ok.inj h).symm⟩
  | error e => cases h

theorem map_const_eq_error {ε α : Type} {x : Except ε Unit} {a : α} {e : ε} (h : (x.map fun _ => a) = .error e) :
    x = .error e := by
  cases x with
  | ok u => cases h
  | error e' => exact congrArg _ (Except.error.inj h)

section Calls

variable {ω ρ : Type} {redb : Redb δ ω ρ ε} {views : Redb.Views δ ω ρ} {tables : Tables}

open RedbStorage

theorem openDatabase_ensures (h : redb.Lawful views) : Ensures (views.contents · = tables) (openDatabase redb)
    (fun _ db => views.contents db = tables) fun e db => e.IsDatabase ∧ views.contents db = tables := by
  refine Ensures.bind (Q := fun _ db => views.contents db = tables) ?_ fun _ => ?_
  · refine Redb.attempt_ensures ?_ ?_
    · intro db _ db' hdb hcreate
      rw [← hdb, ← h.create db, hcreate]
    · intro db e db' hdb hcreate
      rw [← hdb, ← h.create db, hcreate]
      exact ⟨⟨e, rfl⟩, rfl⟩
  -- To open the tables changes nothing, so it does not matter whether they were committed.
  have hopen : ∀ table, Ensures (views.pending · = tables) (Redb.attempt (redb.openTable table))
      (fun _ w => views.pending w = tables) fun e _ => e.IsDatabase := fun table =>
    Redb.attempt_ensures (fun w _ w' hw hopened => (h.openTable table w w' hopened).trans hw) fun _ e _ _ _ => ⟨e, rfl⟩
  refine (h.write (fun _ after => after = tables)
    (Ensures.bind (hopen settingsTable) fun _ => hopen modelsTable)).weaken (fun _ => id) (fun _ _ => id) ?_
  rintro e db ⟨hdatabase, hsame | ⟨-, hsame⟩⟩
  · exact ⟨hdatabase, hsame⟩
  · exact ⟨hdatabase, hsame⟩

theorem insert_ensures (h : redb.Lawful views) (definition key : String) (value : List UInt8) :
    let after := Function.update tables definition ((tables definition).insert key value)
    Ensures (views.contents · = tables) (RedbStorage.insert redb definition key value)
      (fun _ db => views.contents db = after)
      fun e db => e.IsDatabase ∧ (views.contents db = tables ∨ views.contents db = after) := by
  intro after
  have hwork : Ensures (views.pending · = tables)
      (Redb.attempt (redb.openTable definition) >>= fun _ => Redb.attempt (redb.insert definition key value))
      (fun _ w => views.pending w = after) fun e _ => e.IsDatabase := by
    refine Ensures.bind (Q := fun _ w => views.pending w = tables) ?_ fun _ => ?_
    · exact Redb.attempt_ensures (fun w _ w' hw hopened => (h.openTable _ w w' hopened).trans hw)
        fun _ e _ _ _ => ⟨e, rfl⟩
    · refine Redb.attempt_ensures ?_ fun _ e _ _ _ => ⟨e, rfl⟩
      rintro w _ w' rfl hinserted
      exact h.insert definition key value w w' hinserted
  refine (h.write (fun _ made => made = after) hwork).weaken (fun _ => id) (fun _ _ => id) ?_
  rintro e db ⟨hdatabase, hafter⟩
  exact ⟨hdatabase, hafter.imp_right fun ⟨_, hmade⟩ => hmade⟩

theorem get_ensures (h : redb.Lawful views) (definition key : String) :
    Ensures (views.contents · = tables) (RedbStorage.get redb definition key)
      (fun value db => value = (tables definition).get? key ∧ views.contents db = tables)
      fun e db => e.IsDatabase ∧ views.contents db = tables := by
  refine h.read ?_ ?_
  · intro r value hr hwork
    obtain ⟨_, -, hget⟩ := Except.bind_eq_ok.mp hwork
    rw [← hr]
    exact h.get definition key r value (ok_of_mapError hget)
  · intro r e hr hwork
    obtain hopen | ⟨_, -, hget⟩ := Except.bind_eq_error.mp hwork
    · exact isDatabase_of_mapError hopen
    · exact isDatabase_of_mapError hget

theorem checkRecord_ensures {α : Type} (x : Except StorageError α) {P : δ → Prop} :
    Ensures P (.check fun _ => x.mapError (StoreError.record (ε := ε))) (fun a db => x = .ok a ∧ P db)
      fun e db => (∃ e', x = .error e' ∧ e = .record e') ∧ P db := by
  refine Ensures.check ?_ ?_
  · intro db a hdb hx
    exact ⟨ok_of_mapError hx, hdb⟩
  · intro db e hdb hx
    cases x with
    | ok a => cases hx
    | error e' =>
      cases hx
      exact ⟨⟨e', rfl, rfl⟩, hdb⟩

/-- The call is a step of the catalogue, which is stored afterwards. -/
def Becomes (views : Redb.Views δ ω ρ) (catalogue : Catalogue) (call : StorageCall) (result : StorageResult ε) (db : δ) :
    Prop :=
  ∃ after, catalogue.Step call result after ∧ after.StoredIn (views.contents db)

/-- However it ends, the computation does what the call is meant to do. -/
abbrev Refines {α : Type} (views : Redb.Views δ ω ρ) (tables : Tables) (catalogue : Catalogue) (call : StorageCall)
    (wrap : Except (StoreError ε) α → StorageResult ε) (x : Fallible δ (StoreError ε) α) : Prop :=
  Ensures (views.contents · = tables) x (fun a db => Becomes views catalogue call (wrap (.ok a)) db)
    fun e db => Becomes views catalogue call (wrap (.error e)) db

variable {catalogue : Catalogue}

theorem saveSettings_refines (h : redb.Lawful views) (hstored : catalogue.StoredIn tables) (settings : ApplicationSettings) :
    Refines views tables catalogue (.saveSettings settings) .done (saveSettings redb settings) := by
  refine Ensures.bind ((checkRecord_ensures _).weaken (fun _ => id) (fun _ _ => id) ?_) fun encoded => ?_
  · rintro e db ⟨⟨e', hrefused, rfl⟩, rfl⟩
    rw [settings.encode_eq] at hrefused
    exact ⟨catalogue, .saveRefused (map_const_eq_error hrefused), hstored⟩
  refine Ensures.of_and fun hencoded => ?_
  rw [settings.encode_eq] at hencoded
  obtain ⟨hadmitted, rfl⟩ := map_const_eq_ok hencoded
  refine (insert_ensures h settingsTable settingsKey settings.bytes).weaken (fun _ => id) ?_ ?_
  · rintro _ db hdb
    exact ⟨catalogue.save settings hadmitted, .saved hadmitted, hdb ▸ hstored.save hadmitted⟩
  · rintro _ db ⟨⟨e, rfl⟩, hdb | hdb⟩
    · exact ⟨catalogue, .saveFailed hadmitted e (Or.inl rfl), hdb ▸ hstored⟩
    · exact ⟨catalogue.save settings hadmitted, .saveFailed hadmitted e (Or.inr rfl), hdb ▸ hstored.save hadmitted⟩

theorem upsertModel_refines (h : redb.Lawful views) (hstored : catalogue.StoredIn tables) (record : ModelRecord) :
    Refines views tables catalogue (.upsertModel record) .done (upsertModel redb record) := by
  refine Ensures.bind ((checkRecord_ensures _).weaken (fun _ => id) (fun _ _ => id) ?_) fun encoded => ?_
  · rintro e db ⟨⟨e', hrefused, rfl⟩, rfl⟩
    rw [record.encode_eq] at hrefused
    exact ⟨catalogue, .upsertRefused (map_const_eq_error hrefused), hstored⟩
  refine Ensures.of_and fun hencoded => ?_
  rw [record.encode_eq] at hencoded
  obtain ⟨hadmitted, rfl⟩ := map_const_eq_ok hencoded
  refine (insert_ensures h modelsTable record.name record.bytes).weaken (fun _ => id) ?_ ?_
  · rintro _ db hdb
    exact ⟨catalogue.upsert record hadmitted, .upserted hadmitted, hdb ▸ hstored.upsert hadmitted⟩
  · rintro _ db ⟨⟨e, rfl⟩, hdb | hdb⟩
    · exact ⟨catalogue, .upsertFailed hadmitted e (Or.inl rfl), hdb ▸ hstored⟩
    · exact ⟨catalogue.upsert record hadmitted, .upsertFailed hadmitted e (Or.inr rfl), hdb ▸ hstored.upsert hadmitted⟩

theorem loadSettings_refines (h : redb.Lawful views) (hstored : catalogue.StoredIn tables) :
    Refines views tables catalogue .loadSettings .settings (loadSettings redb) := by
  refine Ensures.bind ((get_ensures h settingsTable settingsKey).weaken (fun _ => id) (fun _ _ => id) ?_) fun value => ?_
  · rintro _ db ⟨⟨e, rfl⟩, rfl⟩
    exact ⟨catalogue, .settingsFailed e, hstored⟩
  refine Ensures.of_and fun hvalue => ?_
  rw [hstored.getSettings] at hvalue
  have hloaded : ∀ db, views.contents db = tables →
      Becomes (ε := ε) views catalogue .loadSettings (.settings (.ok catalogue.settings)) db :=
    fun db hdb => ⟨catalogue, .settingsLoaded, hdb ▸ hstored⟩
  cases hsettings : catalogue.settings with
  | none =>
    rw [hsettings] at hvalue hloaded
    subst hvalue
    exact Ensures.pure hloaded
  | some settings =>
    rw [hsettings] at hvalue hloaded
    subst hvalue
    have hdecode := decodeSettings_bytes (catalogue.settings_admitted settings hsettings)
    refine Ensures.check ?_ ?_
    · intro db a hdb hread
      rw [hdecode] at hread
      cases hread
      exact hloaded db hdb
    · intro db e hdb hread
      rw [hdecode] at hread
      cases hread

theorem loadModel_refines (h : redb.Lawful views) (hstored : catalogue.StoredIn tables) (name : String) :
    Refines views tables catalogue (.loadModel name) .model (loadModel redb name) := by
  refine Ensures.bind ((checkRecord_ensures _).weaken (fun _ => id) (fun _ _ => id) ?_) fun _ => ?_
  · rintro e db ⟨⟨e', hrefused, rfl⟩, rfl⟩
    exact ⟨catalogue, .loadRefused hrefused, hstored⟩
  refine Ensures.of_and fun hname => ?_
  refine Ensures.bind ((get_ensures h modelsTable name).weaken (fun _ => id) (fun _ _ => id) ?_) fun value => ?_
  · rintro _ db ⟨⟨e, rfl⟩, rfl⟩
    exact ⟨catalogue, .loadFailed hname e, hstored⟩
  refine Ensures.of_and fun hvalue => ?_
  rw [hstored.get?] at hvalue
  have hloaded : ∀ db, views.contents db = tables →
      Becomes (ε := ε) views catalogue (.loadModel name) (.model (.ok (catalogue.models.get? name))) db :=
    fun db hdb => ⟨catalogue, .modelLoaded hname, hdb ▸ hstored⟩
  cases hrecord : catalogue.models.get? name with
  | none =>
    rw [hrecord] at hvalue hloaded
    subst hvalue
    exact Ensures.pure hloaded
  | some record =>
    rw [hrecord] at hvalue hloaded
    subst hvalue
    have hdecode := decodeModel_bytes (catalogue.models_admitted name record hrecord).2
    refine Ensures.check ?_ ?_
    · intro db a hdb hread
      rw [hdecode] at hread
      cases hread
      exact hloaded db hdb
    · intro db e hdb hread
      rw [hdecode] at hread
      cases hread

theorem removeModel_refines (h : redb.Lawful views) (hstored : catalogue.StoredIn tables) (name : String) :
    Refines views tables catalogue (.removeModel name) .removed (removeModel redb name) := by
  refine Ensures.bind ((checkRecord_ensures _).weaken (fun _ => id) (fun _ _ => id) ?_) fun _ => ?_
  · rintro e db ⟨⟨e', hrefused, rfl⟩, rfl⟩
    exact ⟨catalogue, .removeRefused hrefused, hstored⟩
  refine Ensures.of_and fun hname => ?_
  let after := Function.update tables modelsTable ((tables modelsTable).erase name)
  have hwork : Ensures (views.pending · = tables)
      (Redb.attempt (redb.openTable modelsTable) >>= fun _ => Redb.attempt (redb.remove modelsTable name) >>=
        fun removed => pure removed.isSome)
      (fun there w => there = catalogue.models.contains name ∧ views.pending w = after) fun e _ => e.IsDatabase := by
    refine Ensures.bind (Q := fun _ w => views.pending w = tables) ?_ fun _ => ?_
    · exact Redb.attempt_ensures (fun w _ w' hw hopened => (h.openTable _ w w' hopened).trans hw)
        fun _ e _ _ _ => ⟨e, rfl⟩
    refine Ensures.bind (Q := fun removed w => removed = (tables modelsTable).get? name ∧ views.pending w = after) ?_
      fun removed => Ensures.pure ?_
    · refine Redb.attempt_ensures ?_ fun _ e _ _ _ => ⟨e, rfl⟩
      rintro w old w' rfl hremoved
      exact h.remove modelsTable name w old w' hremoved
    · rintro w ⟨rfl, hw⟩
      rw [hstored.get?, Option.isSome_map]
      exact ⟨rfl, hw⟩
  refine (h.write (fun there made => there = catalogue.models.contains name ∧ made = after) hwork).weaken
    (fun _ => id) ?_ ?_
  · rintro _ db ⟨rfl, hdb⟩
    exact ⟨catalogue.remove name, .removed hname, hdb ▸ hstored.remove name⟩
  · rintro _ db ⟨⟨e, rfl⟩, hdb | ⟨_, -, hdb⟩⟩
    · exact ⟨catalogue, .removeFailed hname e (Or.inl rfl), hdb ▸ hstored⟩
    · exact ⟨catalogue.remove name, .removeFailed hname e (Or.inr rfl), hdb ▸ hstored.remove name⟩

theorem readEntry_ok {entry : String × ModelRecord} (h : entry ∈ catalogue.models.entries) :
    readEntry (.ok (entry.1, entry.2.bytes) : Except ε _) = .ok entry.2 := by
  have hadmitted := (catalogue.models_admitted entry.1 entry.2 (OrdMap.get?_eq_some.mpr h)).2
  have hdecode := decodeModel_bytes hadmitted
  show (decodeModel entry.2.bytes).mapError StoreError.record = .ok entry.2
  rw [hdecode]
  rfl

/-- The iterator gives the records in the order of their names, or fails. -/
theorem mapM_readEntry {entries : List (Except ε (String × List UInt8))}
    (h : entries = catalogue.rows.map .ok ∨ ∃ n e rest, entries = (catalogue.rows.take n).map .ok ++ .error e :: rest) :
    entries.mapM readEntry = .ok catalogue.models.values ∨ ∃ e, entries.mapM readEntry = .error (.database e) := by
  obtain rfl | ⟨n, e, rest, rfl⟩ := h
  · rw [Catalogue.rows, List.mapM_map, List.mapM_map]
    exact Or.inl (Except.mapM_ok fun entry hentry => readEntry_ok hentry)
  · have hread : ((catalogue.rows.take n).map (.ok : _ → Except ε _)).mapM readEntry =
        .ok ((catalogue.models.entries.take n).map Prod.snd) := by
      rw [Catalogue.rows, ← List.map_take, List.mapM_map, List.mapM_map]
      exact Except.mapM_ok fun entry hentry => readEntry_ok (List.mem_of_mem_take hentry)
    rw [List.mapM_append, hread, List.mapM_cons]
    exact Or.inr ⟨e, rfl⟩

theorem listModels_refines (h : redb.Lawful views) (hstored : catalogue.StoredIn tables) :
    Refines views tables catalogue .listModels .models (listModels redb) := by
  have hentries : ∀ r entries, views.snapshot r = tables → redb.iter modelsTable r = .ok entries →
      entries.mapM readEntry = .ok catalogue.models.values ∨ ∃ e, entries.mapM readEntry = .error (.database e) := by
    rintro r entries rfl hiter
    refine mapM_readEntry ?_
    rw [← hstored.entries]
    exact h.iter modelsTable r entries hiter
  have hread : Ensures (views.contents · = tables) (listModels redb)
      (fun records db => records = catalogue.models.values ∧ views.contents db = tables)
      fun e db => e.IsDatabase ∧ views.contents db = tables := by
    refine h.read ?_ ?_
    · intro r records hr hwork
      obtain ⟨_, -, hrest⟩ := Except.bind_eq_ok.mp hwork
      obtain ⟨entries, hiter, hmap⟩ := Except.bind_eq_ok.mp hrest
      obtain hok | ⟨e, herror⟩ := hentries r entries hr (ok_of_mapError hiter)
      · exact (Except.ok.inj (hok.symm.trans hmap)).symm
      · cases herror.symm.trans hmap
    · intro r e hr hwork
      obtain hopen | ⟨_, -, hrest⟩ := Except.bind_eq_error.mp hwork
      · exact isDatabase_of_mapError hopen
      obtain hiter | ⟨entries, hiter, hmap⟩ := Except.bind_eq_error.mp hrest
      · exact isDatabase_of_mapError hiter
      obtain hok | ⟨e', herror⟩ := hentries r entries hr (ok_of_mapError hiter)
      · cases hok.symm.trans hmap
      · exact ⟨e', (Except.error.inj (herror.symm.trans hmap)).symm⟩
  refine hread.weaken (fun _ => id) ?_ ?_
  · rintro _ db ⟨rfl, rfl⟩
    exact ⟨catalogue, .listed, hstored⟩
  · rintro _ db ⟨⟨e, rfl⟩, rfl⟩
    exact ⟨catalogue, .listFailed e, hstored⟩

theorem Refines.becomes {α : Type} {x : Fallible δ (StoreError ε) α} {wrap : Except (StoreError ε) α → StorageResult ε}
    {call : StorageCall} {db : δ} (h : Refines views (views.contents db) catalogue call wrap x) :
    Becomes views catalogue call ((x db).map wrap id).1 ((x db).map wrap id).2 := by
  rcases hx : x db with ⟨result, db'⟩
  cases result with
  | ok a => exact h.ok rfl hx
  | error e => exact h.error rfl hx

/-- A call of the store is a step of the catalogue that it stores. -/
theorem call_refines (h : redb.Lawful views) {db : δ} (hstored : catalogue.StoredIn (views.contents db))
    (call : StorageCall) :
    Becomes views catalogue call (RedbStorage.call redb call db).1 (RedbStorage.call redb call db).2 := by
  cases call with
  | openDatabase =>
    refine Refines.becomes ((openDatabase_ensures h).weaken (fun _ => id) ?_ ?_)
    · exact fun _ db' hdb => ⟨catalogue, .opened, hdb ▸ hstored⟩
    · rintro _ db' ⟨⟨e, rfl⟩, hdb⟩
      exact ⟨catalogue, .openFailed e, hdb ▸ hstored⟩
  | saveSettings settings => exact Refines.becomes (saveSettings_refines h hstored settings)
  | loadSettings => exact Refines.becomes (loadSettings_refines h hstored)
  | upsertModel record => exact Refines.becomes (upsertModel_refines h hstored record)
  | loadModel name => exact Refines.becomes (loadModel_refines h hstored name)
  | removeModel name => exact Refines.becomes (removeModel_refines h hstored name)
  | listModels => exact Refines.becomes (listModels_refines h hstored)

/-! ### Whole runs -/

theorem run_refines (h : redb.Lawful views) (calls : List StorageCall) {db : δ}
    (hstored : catalogue.StoredIn (views.contents db)) : ∃ after,
      catalogue.Run calls (RedbStorage.run redb calls db).1 after ∧
        after.StoredIn (views.contents (RedbStorage.run redb calls db).2) := by
  induction calls generalizing db catalogue with
  | nil => exact ⟨catalogue, .nil catalogue, hstored⟩
  | cons call calls ih =>
    obtain ⟨middle, hstep, hmiddle⟩ := call_refines h hstored call
    obtain ⟨after, hrun, hafter⟩ := ih hmiddle
    exact ⟨after, .cons hstep hrun, hafter⟩

theorem created_stored (hsettings : tables settingsTable = .empty) (hmodels : tables modelsTable = .empty) :
    Catalogue.created.StoredIn tables :=
  ⟨hsettings, hmodels⟩

/-- Over any database that keeps what redb documents, and from empty tables: whatever
is called and whatever fails, the store answers as the catalogue does, its tables
are the catalogue, and it reads every record that it has written. -/
theorem run_created (h : redb.Lawful views) (db : δ) (hsettings : views.contents db settingsTable = .empty)
    (hmodels : views.contents db modelsTable = .empty) (calls : List StorageCall) :
    let (results, db') := RedbStorage.run redb calls db
    (∃ catalogue, Catalogue.created.Run calls results catalogue ∧ catalogue.StoredIn (views.contents db')) ∧
      ∀ result ∈ results, result.Readable := by
  obtain ⟨after, hrun, hafter⟩ := run_refines h calls (created_stored hsettings hmodels)
  exact ⟨⟨after, hrun, hafter⟩, hrun.readable⟩

end Calls

/-! ### A database in memory -/

/-- A database that holds its tables. Its commits go through as the answers say, and
then always. -/
def memory : Redb (Tables × List Bool) Tables Tables Unit where
  create db := (.ok (), db)
  beginWrite db := (.ok db.1, db)
  openTable _ w := (.ok (), w)
  insert table key value w := (.ok (), Function.update w table ((w table).insert key value))
  remove table key w := (.ok ((w table).get? key), Function.update w table ((w table).erase key))
  commit w db := if db.2.head? = some false then (.error (), db.1, db.2.tail) else (.ok (), w, db.2.tail)
  drop _ db := db
  beginRead db := (.ok db.1, db)
  openReadTable _ _ := .ok ()
  get table key r := .ok ((r table).get? key)
  iter table r := .ok ((r table).entries.map .ok)

theorem memory_lawful : memory.Lawful ⟨Prod.fst, id, id⟩ where
  create _ := rfl
  beginWrite _ := rfl
  begun _ _ _ h := by
    cases h
    rfl
  openTable _ _ _ h := by
    cases h
    rfl
  insert _ _ _ _ _ h := by
    cases h
    rfl
  remove _ _ _ _ _ h := by
    cases h
    exact ⟨rfl, rfl⟩
  committed w db db' h := by
    unfold memory at h
    dsimp only at h
    split_ifs at h
    · cases h
    · cases h
      rfl
  uncommitted w db e db' h := by
    unfold memory at h
    dsimp only at h
    split_ifs at h
    · cases h
      exact Or.inl rfl
    · cases h
  dropped _ _ := rfl
  beginRead _ := rfl
  seen _ _ _ h := by
    cases h
    rfl
  get _ _ _ _ h := by
    cases h
    rfl
  iter _ _ _ h := by
    cases h
    exact Or.inl rfl

/-- The commit of the second entry fails. The first is replaced, listed and removed. -/
theorem run_created_memory :
    let first : ModelRecord := ⟨"first", "repo", "main", .f32, 1⟩
    let second : ModelRecord := ⟨"second", "repo", "main", .f16, 2⟩
    let calls : List StorageCall := [.openDatabase, .upsertModel first, .upsertModel second,
      .upsertModel { first with lastUsedUnixMilliseconds := 3 }, .listModels, .removeModel "first", .loadModel "first",
      .loadModel " "]
    let db : Tables × List Bool := (fun _ => .empty, [true, true, false])
    let (results, db') := RedbStorage.run memory calls db
    results = [.done (.ok ()), .done (.ok ()), .done (.error (.database ())), .done (.ok ()),
        .models (.ok [⟨"first", "repo", "main", .f32, 3⟩]), .removed (.ok true), .model (.ok none),
        .model (.error (.record (.invalidField .modelName)))] ∧
      (∃ catalogue, Catalogue.created.Run calls results catalogue ∧ catalogue.StoredIn db'.1) ∧
      ∀ result ∈ results, result.Readable := by
  intro first second calls db
  exact ⟨by decide +kernel, run_created memory_lawful db rfl rfl calls⟩

end LlmApp
