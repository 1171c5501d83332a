import ValidatorClient.Proofs.Ledger.AddressText
import ValidatorClient.Proofs.Settings.Cluster

namespace ValidatorClient.Settings

open Ledger

variable {σ : Type} {store : Store σ} {s s' : σ} {home : Option String} {text value other : String}
  {result : Except ClientError Unit}

inductive Setting where
  | program (a : Address)
  | network (text : String)
  | keyPairPath (path : String)

namespace Setting

def set (store : Store σ) : Setting → Change σ ClientError Unit
  | program a => setProgram store a
  | network text => setNetwork store text
  | keyPairPath path => setKeyPairPath store path

def key : Setting → String
  | program _ => programKey
  | network _ => networkKey
  | keyPairPath _ => keyPairPathKey

def program? : Setting → Option Address
  | program a => some a
  | _ => none

def network? : Setting → Option String
  | network text => some text
  | _ => none

def keyPairPath? : Setting → Option String
  | keyPairPath path => some path
  | _ => none

end Setting

/-- The files of the client lie in one directory, however the home directory is written. -/
theorem names_clientFile {name : String} (hne : name ≠ "") (hslash : '/' ∉ name.toList)
    (home : String) :
    (FileTree.Path.parts (clientFile home name)).filter (· ≠ "") =
      (FileTree.Path.parts home).filter (· ≠ "") ++ [".config", "solana", "ingl", name] := by
  have hdirectory : ∀ part ∈ [".config", "solana", "ingl"], part ≠ "" ∧ '/' ∉ part.toList := by
    decide
  have hnames : ∀ part ∈ [".config", "solana", "ingl"] ++ [name], part ≠ "" ∧ '/' ∉ part.toList :=
    List.forall_mem_append.2 ⟨hdirectory, List.forall_mem_singleton.2 ⟨hne, hslash⟩⟩
  exact FileTree.Path.names_foldl_push hnames home

/-- What becomes of the endpoint when it is set to a text. -/
structure Endpoint (text endpoint : String) : Prop where
  named : ∀ c : Cluster, c.IsNamed text → endpoint = c.url
  unset : text = "" → endpoint = Cluster.devnet.url
  verbatim : text ≠ "" → (∀ c : Cluster, ¬ c.IsNamed text) → endpoint = text

theorem network_of_get (h : store.get s networkKey = value) :
    network store s = if value = "" then Cluster.devnet.url else value := by
  simp only [network, h, String.isEmpty_iff]

theorem keyPairPath_of_get (h : store.get s keyPairPathKey = value) :
    keyPairPath store home s = if value = "" then defaultKeyPairPath home else value := by
  simp only [keyPairPath, h, String.isEmpty_iff]

theorem program_of_unset (h : store.get s programKey = "") : program store s = defaultProgram := by
  rw [program, h]
  rfl

theorem program_of_raw :
    (∀ a, Address.parse (store.get s programKey) = .ok a → program store s = a) ∧
      ((∀ a, Address.parse (store.get s programKey) ≠ .ok a) →
        program store s = defaultProgram) := by
  constructor
  · intro a h
    exact Address.program_eq_of_get (Address.parse_eq_ok_iff.1 h)
  · intro h
    rw [program]
    cases hparse : Address.parse (store.get s programKey) with
    | ok a => exact absurd hparse (h a)
    | error => exact ite_self defaultProgram

theorem setNetwork_of_isNamed {c : Cluster} (h : c.IsNamed text) :
    setNetwork store text = store.set networkKey c.url := by
  rw [setNetwork, Cluster.parse_eq_ok_iff.2 h]

theorem setNetwork_of_not_isNamed (h : ∀ c : Cluster, ¬ c.IsNamed text) :
    setNetwork store text = store.set networkKey text := by
  rw [setNetwork]
  cases hparse : Cluster.parse text with
  | ok c => exact absurd (Cluster.parse_eq_ok_iff.1 hparse) (h c)
  | error => rfl

theorem exists_setNetwork (store : Store σ) (text : String) :
    ∃ value, setNetwork store text = store.set networkKey value ∧
      Endpoint text (if value = "" then Cluster.devnet.url else value) := by
  by_cases h : ∃ c : Cluster, c.IsNamed text
  · obtain ⟨c, hc⟩ := h
    have hset {d : Cluster} (hd : d.IsNamed text) :
        setNetwork store text = store.set networkKey d.url :=
      setNetwork_of_isNamed hd
    refine ⟨c.url, hset hc, fun d hd ↦ ?_, ?_, fun _ hnot ↦ absurd hc (hnot c)⟩
    · rw [if_neg c.url_ne_empty]
      have heq := (Cluster.parse_eq_ok_iff.2 hc).symm.trans (Cluster.parse_eq_ok_iff.2 hd)
      rw [Except.ok.inj heq]
    · rintro rfl
      exact absurd hc c.not_isNamed_empty
  · have hnot := not_exists.1 h
    refine ⟨text, setNetwork_of_not_isNamed hnot, fun c hc ↦ absurd hc (hnot c),
      fun hempty ↦ if_pos hempty, fun hne _ ↦ if_neg hne⟩

namespace Setting

variable {setting : Setting}

theorem exists_set (store : Store σ) (setting : Setting) :
    ∃ value, setting.set store = store.set setting.key value := by
  cases setting with
  | program a => exact ⟨a.toString, rfl⟩
  | network text =>
    obtain ⟨value, hset, -⟩ := exists_setNetwork store text
    exact ⟨value, hset⟩
  | keyPairPath path => exact ⟨path, rfl⟩

theorem get_of_set (hstore : store.Remembers) (h : (setting.set store).apply s = (result, s'))
    (hother : result = .ok () → setting.key ≠ other) : store.get s' other = store.get s other := by
  obtain ⟨value, hset⟩ := exists_set store setting
  rw [hset] at h
  cases result with
  | ok => exact (hstore.lawful h other).trans (if_neg (hother rfl))
  | error e => exact hstore.kept h other

end Setting

variable {setting : Setting} {a : Address} {path : String}

/-- A setting changes itself alone, and not even that where it cannot be set. -/
theorem others_of_set (hstore : store.Remembers) (h : (setting.set store).apply s = (result, s'))
    (home : Option String) :
    ((result = .ok () → setting.key ≠ programKey) → program store s' = program store s) ∧
    ((result = .ok () → setting.key ≠ networkKey) → network store s' = network store s) ∧
    ((result = .ok () → setting.key ≠ keyPairPathKey) →
      keyPairPath store home s' = keyPairPath store home s) := by
  refine ⟨fun hkey ↦ ?program, fun hkey ↦ ?network, fun hkey ↦ ?keyPairPath⟩
  case program => rw [program, program, Setting.get_of_set hstore h hkey]
  case network => rw [network, network, Setting.get_of_set hstore h hkey]
  case keyPairPath => rw [keyPairPath, keyPairPath, Setting.get_of_set hstore h hkey]

theorem endpoint_of_setNetwork (hstore : store.Lawful)
    (h : (setNetwork store text).apply s = (.ok (), s')) :
    Endpoint text (network store s') := by
  obtain ⟨value, hset, hendpoint⟩ := exists_setNetwork store text
  rw [hset] at h
  rwa [network_of_get ((hstore h networkKey).trans (if_pos rfl))]

structure Holds (store : Store σ) (home : Option String) (a : Address) (text path : String)
    (s : σ) : Prop where
  program_eq : program store s = a
  endpoint : Endpoint text (network store s)
  keyPairPath_eq : keyPairPath store home s = if path = "" then defaultKeyPairPath home else path

theorem holds_of_unset
    (h : ∀ key ∈ [programKey, networkKey, keyPairPathKey], store.get s key = "") :
    Holds store home defaultProgram "" "" s := by
  simp only [List.forall_mem_cons] at h
  obtain ⟨hprogram, hnetwork, hpath, -⟩ := h
  refine ⟨program_of_unset hprogram, ?_, keyPairPath_of_get hpath⟩
  rw [network_of_get hnetwork]
  exact ⟨fun c hc ↦ absurd hc c.not_isNamed_empty, fun _ ↦ rfl, fun hne ↦ absurd rfl hne⟩

theorem Holds.set (hstore : store.Remembers) (h : Holds store home a text path s)
    (hset : (setting.set store).apply s = (.ok (), s')) :
    Holds store home (setting.program?.getD a) (setting.network?.getD text)
      (setting.keyPairPath?.getD path) s' := by
  obtain ⟨hprogram, hendpoint, hpath⟩ := h
  obtain ⟨hprogram', hnetwork', hpath'⟩ := others_of_set hstore hset home
  cases setting with
  | program b =>
    refine ⟨Address.program_eq_of_get ((hstore.lawful hset programKey).trans (if_pos rfl)), ?_, ?_⟩
    · rwa [hnetwork' fun _ ↦ (by decide : programKey ≠ networkKey)]
    · rwa [hpath' fun _ ↦ (by decide : programKey ≠ keyPairPathKey)]
  | network text =>
    refine ⟨?_, endpoint_of_setNetwork hstore.lawful hset, ?_⟩
    · rwa [hprogram' fun _ ↦ (by decide : networkKey ≠ programKey)]
    · rwa [hpath' fun _ ↦ (by decide : networkKey ≠ keyPairPathKey)]
  | keyPairPath path =>
    refine ⟨?_, ?_, keyPairPath_of_get ((hstore.lawful hset keyPairPathKey).trans (if_pos rfl))⟩
    · rwa [hprogram' fun _ ↦ (by decide : keyPairPathKey ≠ programKey)]
    · rwa [hnetwork' fun _ ↦ (by decide : keyPairPathKey ≠ networkKey)]

theorem Holds.refused (hstore : store.Remembers) (h : Holds store home a text path s)
    {e : ClientError} (hset : (setting.set store).apply s = (.error e, s')) :
    Holds store home a text path s' := by
  obtain ⟨hprogram', hnetwork', hpath'⟩ := others_of_set hstore hset home
  refine ⟨(hprogram' nofun).trans h.program_eq, ?_, (hpath' nofun).trans h.keyPairPath_eq⟩
  rw [hnetwork' nofun]
  exact h.endpoint

/-- Sets the settings one after the other, also after one could not be set: those that were, and the
state then. -/
def setAll (store : Store σ) : List Setting → σ → List Setting × σ
  | [], s => ([], s)
  | setting :: settings, s =>
    match (setting.set store).apply s with
    | (.ok (), s) => (setting :: (setAll store settings s).1, (setAll store settings s).2)
    | (.error _, s) => setAll store settings s

def last? {α : Type} (value? : Setting → Option α) (settings : List Setting) : Option α :=
  (settings.filterMap value?).getLast?

theorem getD_last?_cons {α : Type} {value? : Setting → Option α} {settings : List Setting} {b : α} :
    (last? value? (setting :: settings)).getD b =
      (last? value? settings).getD ((value? setting).getD b) := by
  rw [last?, List.filterMap_cons]
  cases value? setting with
  | none => rfl
  | some c =>
    rw [List.getLast?_cons]
    rfl

theorem Holds.setAll (hstore : store.Remembers) (h : Holds store home a text path s)
    (settings : List Setting) :
    Holds store home ((last? Setting.program? (setAll store settings s).1).getD a)
      ((last? Setting.network? (setAll store settings s).1).getD text)
      ((last? Setting.keyPairPath? (setAll store settings s).1).getD path)
      (setAll store settings s).2 := by
  induction settings generalizing a text path s with
  | nil => exact h
  | cons setting settings ih =>
    rw [Settings.setAll]
    rcases hset : (setting.set store).apply s with ⟨e | ⟨⟩, s'⟩
    · exact ih (h.refused hstore hset)
    · dsimp only
      rw [getD_last?_cons, getD_last?_cons, getD_last?_cons]
      exact ih (h.set hstore hset)

theorem Endpoint.eq_url_or {endpoint : String} (h : Endpoint text endpoint) :
    (∃ c : Cluster, endpoint = c.url) ∨ endpoint = text ∧ text ≠ "" ∧
      ∀ c : Cluster, ¬ c.IsNamed text := by
  by_cases hnamed : ∃ c : Cluster, c.IsNamed text
  · obtain ⟨c, hc⟩ := hnamed
    exact .inl ⟨c, h.named c hc⟩
  have hnot := not_exists.1 hnamed
  by_cases hempty : text = ""
  · exact .inl ⟨.devnet, h.unset hempty⟩
  · exact .inr ⟨h.verbatim hempty hnot, hempty, hnot⟩

theorem Endpoint.again {endpoint again : String} (h : Endpoint text endpoint)
    (hagain : Endpoint endpoint again) :
    again = endpoint := by
  rcases h.eq_url_or with ⟨c, rfl⟩ | ⟨rfl, hne, hnot⟩
  · exact hagain.verbatim c.url_ne_empty fun d ↦ d.not_isNamed_url c
  · exact hagain.verbatim hne hnot

/-- To set an endpoint that was got changes nothing. -/
theorem Holds.reset (hstore : store.Remembers) (h : Holds store home a text path s)
    (hset : (setNetwork store (network store s)).apply s = (result, s')) :
    program store s' = program store s ∧ network store s' = network store s ∧
      keyPairPath store home s' = keyPairPath store home s ∧
        cluster store s' = cluster store s := by
  have hsetting : ((Setting.network (network store s)).set store).apply s = (result, s') := hset
  obtain ⟨hprogram, hother, hpath⟩ := others_of_set hstore hsetting home
  have hnetwork : network store s' = network store s := by
    cases result with
    | ok => exact h.endpoint.again (endpoint_of_setNetwork hstore.lawful hset)
    | error => exact hother nofun
  exact ⟨hprogram fun _ ↦ (by decide : networkKey ≠ programKey), hnetwork,
    hpath fun _ ↦ (by decide : networkKey ≠ keyPairPathKey), congrArg Cluster.ofUrl? hnetwork⟩

theorem cluster_eq_some_iff {c : Cluster} : cluster store s = some c ↔ c.IsAt (network store s) :=
  Cluster.ofUrl?_eq_some_iff

theorem cluster_of_setNetwork (hstore : store.Lawful) {c : Cluster} (hc : c.IsNamed text)
    (h : (setNetwork store text).apply s = (.ok (), s')) : cluster store s' = some c := by
  rw [cluster_eq_some_iff, (endpoint_of_setNetwork hstore h).named c hc]
  exact c.isAt_url

theorem setAll_of_takesAll (hstore : store.TakesAll) (settings : List Setting) (s : σ) :
    (setAll store settings s).1 = settings := by
  induction settings generalizing s with
  | nil => rfl
  | cons setting settings ih =>
    obtain ⟨value, hset⟩ := Setting.exists_set store setting
    obtain ⟨s', htaken⟩ := hstore setting.key value s
    rw [setAll, hset, htaken]
    exact congrArg (setting :: ·) (ih s')

/-- In a store that had none of them, each setting is the one that was last set, or the default, and
all are set if the store refuses none. An endpoint may be set by the name of a cluster, and an empty
text is the default again. To set one changes no other, and to set an endpoint as it is changes
nothing. The cluster is the one whose address the endpoint is, whatever slashes it ends in. A text
that is not that of an address counts as unset, however it came into a store. -/
theorem setAll_exact (hstore : store.Remembers)
    (hs : ∀ key ∈ [programKey, networkKey, keyPairPathKey], store.get s key = "")
    (home : Option String) (settings : List Setting) :
    let (done, left) := setAll store settings s
    let path := (last? Setting.keyPairPath? done).getD ""
    (store.TakesAll → done = settings) ∧
    program store left = (last? Setting.program? done).getD defaultProgram ∧
    Endpoint ((last? Setting.network? done).getD "") (network store left) ∧
    keyPairPath store home left = (if path = "" then defaultKeyPairPath home else path) ∧
    (∀ result s', (setNetwork store (network store left)).apply left = (result, s') →
      program store s' = program store left ∧ network store s' = network store left ∧
        keyPairPath store home s' = keyPairPath store home left ∧
          cluster store s' = cluster store left) ∧
    (∀ setting result s₁ s₂, (Setting.set store setting).apply s₁ = (result, s₂) →
      (setting.key ≠ programKey → program store s₂ = program store s₁) ∧
      (setting.key ≠ networkKey → network store s₂ = network store s₁) ∧
      (setting.key ≠ keyPairPathKey → keyPairPath store home s₂ = keyPairPath store home s₁)) ∧
    (∀ c s₁, cluster store s₁ = some c ↔ c.IsAt (network store s₁)) ∧
    (∀ (c : Cluster) text s₁ s₂, c.IsNamed text → (setNetwork store text).apply s₁ = (.ok (), s₂) →
      cluster store s₂ = some c) ∧
    (∀ (τ : Type) (foreign : Store τ) (t : τ),
      (∀ a, Address.parse (foreign.get t programKey) = .ok a → program foreign t = a) ∧
      ((∀ a, Address.parse (foreign.get t programKey) ≠ .ok a) →
        program foreign t = defaultProgram)) ∧
    Store.memory.Remembers ∧ ∀ path, (Store.jsonFile path).Remembers := by
  have hleft : Holds store home _ _ _ _ := (holds_of_unset hs).setAll hstore settings
  refine ⟨fun htakes ↦ setAll_of_takesAll htakes settings s, hleft.program_eq, hleft.endpoint,
    hleft.keyPairPath_eq, fun _ _ h ↦ hleft.reset hstore h, ?others, fun c s₁ ↦ cluster_eq_some_iff,
    fun c text s₁ s₂ hc h ↦ cluster_of_setNetwork hstore.lawful hc h,
    fun τ foreign t ↦ program_of_raw, Store.remembers_memory, Store.remembers_jsonFile⟩
  case others =>
    intro setting result s₁ s₂ h
    obtain ⟨hprogram, hnetwork, hpath⟩ := others_of_set hstore h home
    exact ⟨fun hkey ↦ hprogram fun _ ↦ hkey, fun hkey ↦ hnetwork fun _ ↦ hkey,
      fun hkey ↦ hpath fun _ ↦ hkey⟩

theorem setAll_exact_memory :
    let settings : List Setting :=
      [.network "MainNet-BETA", .program (.ofNat 7), .keyPairPath "k.json",
      .network "https://api.testnet.solana.com//", .keyPairPath ""]
    let left := (setAll Store.memory settings []).2
    program .memory left = .ofNat 7 ∧ network .memory left = "https://api.testnet.solana.com//" ∧
      keyPairPath .memory (some "/home/u/") left = "/home/u/.config/solana/ingl/id.json" ∧
      cluster .memory left = some .testnet ∧
      (∃ entries, (setNetwork .memory "MainNet-BETA").apply left = (.ok (), entries) ∧
        cluster .memory entries = some .mainnet ∧ program .memory entries = .ofNat 7) ∧
      program .memory [(programKey, "0OIl")] = defaultProgram := by
  intro settings left
  obtain ⟨hall, hprogram, hendpoint, hpath, -, hothers, hcluster, hnamed, hforeign, -⟩ :=
    setAll_exact Store.remembers_memory (s := []) (fun _ _ ↦ rfl) (some "/home/u/") settings
  rw [hall Store.takesAll_memory] at hprogram hendpoint hpath
  have hprogram : program .memory left = .ofNat 7 := hprogram
  have hnot (c : Cluster) : ¬ c.IsNamed "https://api.testnet.solana.com//" := by
    rw [Cluster.isNamed_iff]
    cases c <;> decide
  have hnetwork : network .memory left = "https://api.testnet.solana.com//" :=
    hendpoint.verbatim (by decide) hnot
  have hname : Cluster.mainnet.IsNamed "MainNet-BETA" := by
    rw [Cluster.isNamed_iff]
    decide
  have hfile : defaultKeyPairPath (some "/home/u/") = "/home/u/.config/solana/ingl/id.json" := by
    decide +kernel
  refine ⟨hprogram, hnetwork, hpath.trans hfile, (hcluster .testnet left).2 ⟨2, hnetwork⟩,
    ⟨_, rfl, ?named, ?other⟩, ?foreign⟩
  case named => exact hnamed .mainnet "MainNet-BETA" left _ hname rfl
  case other =>
    exact ((hothers (.network "MainNet-BETA") _ left _ rfl).1 (by decide)).trans hprogram
  case foreign =>
    refine (hforeign Store.Entries .memory [(programKey, "0OIl")]).2 fun a ha ↦ ?_
    have hraw : Address.parse "0OIl" = .error (.invalidAddress (.notBase58 (.invalid '0' 0))) := by
      decide +kernel
    cases hraw.symm.trans ha

end ValidatorClient.Settings
