import ValidatorClient.Program.Instruction
import ValidatorClient.Proofs.Codec.Exact

namespace ValidatorClient.Codec

variable {α β κ ν : Type}

namespace Read

def Agrees (read read' : Read α) : Prop := ∀ r a r', read r = (.ok a, r') ↔ read' r = (.ok a, r')

variable {read read' : Read α}

theorem agrees_refl (read : Read α) : read.Agrees read := fun _ _ _ ↦ Iff.rfl

theorem Agrees.trans {read'' : Read α} (h : read.Agrees read') (h' : read'.Agrees read'') :
    read.Agrees read'' :=
  fun r a r' ↦ (h r a r').trans (h' r a r')

theorem Agrees.bind {next next' : α → Read β} (h : read.Agrees read')
    (hnext : ∀ a, (next a).Agrees (next' a)) :
    (read >>= next).Agrees (read' >>= next') := by
  intro r b r'
  rw [bind_eq_ok_iff, bind_eq_ok_iff]
  exact exists_congr fun a ↦ exists_congr fun s ↦ and_congr (h r a s) (hnext a s b r')

theorem Agrees.map (h : read.Agrees read') (f : α → β) : (f <$> read).Agrees (f <$> read') := by
  rw [map_eq_pure_bind, map_eq_pure_bind]
  exact h.bind fun a ↦ agrees_refl (pure (f a))

theorem Agrees.times (h : read.Agrees read') (n : Nat) : (times read n).Agrees (times read' n) := by
  induction n with
  | zero => exact agrees_refl _
  | succ n ih => exact h.bind fun a ↦ ih.bind fun as ↦ agrees_refl (pure (a :: as))

theorem Agrees.fillMap [DecidableEq κ] {key key' : Read κ} {value value' : Read ν}
    (hkey : key.Agrees key') (hvalue : value.Agrees value') (n index : Nat) (m : OrderedMap κ ν) :
    (Codec.fillMap key value n index m).Agrees (Codec.fillMap key' value' n index m) := by
  induction n generalizing index m with
  | zero => exact agrees_refl _
  | succ n ih =>
    refine hkey.bind fun k ↦ hvalue.bind fun v ↦ ?_
    rcases m.insert k v with ⟨_ | old, m'⟩
    · exact ih (index + 1) m'
    · exact agrees_refl _

/-- A check that only fails where the reader fails makes no difference. -/
theorem ensure_agrees {n : Nat} (h : ∀ r a r', read r = (.ok a, r') → n ≤ r.rest.length) :
    Agrees (do ensure n; read) read := by
  intro r a r'
  rw [bind_eq_ok_iff]
  constructor
  · intro hread
    obtain ⟨⟨⟩, s, hensure, hread⟩ := hread
    obtain ⟨-, rfl⟩ := ensure_eq_ok_iff.1 hensure
    exact hread
  · intro hread
    exact ⟨(), r, ensure_eq_ok_iff.2 ⟨h r a r' hread, rfl⟩, hread⟩

theorem exists_error_of_ensure {n : Nat} (h : ∀ r a r', read r = (.ok a, r') → n ≤ r.rest.length)
    {r s : Reader} {e : Error} (hensure : ensure n r = (.error e, s)) :
    ∃ e' s', read r = (.error e', s') := by
  rcases hread : read r with ⟨e' | a, s'⟩
  · exact ⟨e', s', rfl⟩
  · rw [ensure_eq_ok_iff.2 ⟨h r a s' hread, rfl⟩] at hensure
    cases hensure

end Read

namespace Layout

theorem exists_encode_minLength (layout : Layout α) :
    ∃ a bytes, layout.encode a = .ok bytes ∧ bytes.length = layout.minLength := by
  induction layout with
  | u8 | u16 | u32 | u64 => exact ⟨0, _, rfl, rfl⟩
  | bool => exact ⟨false, _, rfl, rfl⟩
  | bytes n => exact ⟨.replicate n 0, _, rfl, List.length_replicate⟩
  | string => exact ⟨"", _, rfl, rfl⟩
  | option value => exact ⟨none, _, rfl, rfl⟩
  | vec item => exact ⟨[], _, rfl, rfl⟩
  | map key value => exact ⟨.empty, _, rfl, rfl⟩
  | pair first second ih₁ ih₂ =>
    obtain ⟨a, bytes₁, ha, hlength₁⟩ := ih₁
    obtain ⟨b, bytes₂, hb, hlength₂⟩ := ih₂
    refine ⟨(a, b), bytes₁ ++ bytes₂, ?_, ?_⟩
    · rw [encode_pair]
      exact append_eq_ok_iff.2 ⟨_, _, ha, hb, rfl⟩
    · rw [List.length_append, hlength₁, hlength₂]
      rfl
  | union name n_lt payload ih =>
    have hmin :
        ∃ i, (List.ofFn fun i ↦ (payload i).minLength).min? = some (payload i).minLength := by
      cases h : (List.ofFn fun i ↦ (payload i).minLength).min? with
      | none => simp at h
      | some k =>
        obtain ⟨i, rfl⟩ := List.mem_ofFn.1 (List.min?_mem h)
        exact ⟨i, rfl⟩
    obtain ⟨i, hi⟩ := hmin
    obtain ⟨a, bytes, ha, hlength⟩ := ih i
    refine ⟨⟨i, a⟩, UInt8.ofNat i.val :: bytes, ?_, ?_⟩
    · rw [encode_union]
      exact cons_eq_ok_iff.2 ⟨bytes, ha, rfl⟩
    · rw [List.length_cons, hlength, minLength, hi, Nat.add_comm]
      rfl
  | via e layout ih =>
    obtain ⟨a, bytes, ha, hlength⟩ := ih
    exact ⟨e.forth a, bytes, by rw [encode_via, e.back_forth, ha], hlength⟩

theorem le_of_times {item : Layout α} {n : Nat} {as : List α} {r r' : Reader}
    (h : Read.times item.decode n r = (.ok as, r')) : n * item.minLength ≤ r.rest.length := by
  obtain ⟨rfl, chunks, hchunks, hp⟩ := (exact_decode item).times.1 h
  exact Nat.le_trans (length_flatten_of_mapM (fun _ _ ↦ item.minLength_le) hchunks) hp.length_le

theorem le_of_fillMap [DecidableEq κ] {key : Layout κ} {value : Layout ν} {n : Nat}
    {m : OrderedMap κ ν} {r r' : Reader}
    (h : fillMap key.decode value.decode n 0 .empty r = (.ok m, r')) :
    n * (key.minLength + value.minLength) ≤ r.rest.length := by
  obtain ⟨entries, rfl, -, -, chunks, hchunks, hp⟩ :=
    ((exact_decode (pair key value)).fillMap OrderedMap.nodup_keys_empty).1 h
  exact Nat.le_trans (length_flatten_of_mapM (fun _ _ ↦ (pair key value).minLength_le) hchunks)
    hp.length_le

/-- A reader of the same format that believes every count. -/
def decodePlain : {α : Type} → Layout α → Read α
  | _, option value => do
    let b ← Read.byte
    if b = 0 then return none
    else if b = 1 then return some (← value.decodePlain)
    else Read.fail (.presenceByte b)
  | _, vec item => do Read.times item.decodePlain (← Read.count)
  | _, map key value => do fillMap key.decodePlain value.decodePlain (← Read.count) 0 .empty
  | _, pair first second => do return (← first.decodePlain, ← second.decodePlain)
  | _, union name _ payload => do
    let i ← Read.discriminant name _
    return ⟨i, ← (payload i).decodePlain⟩
  | _, via e layout => e.forth <$> layout.decodePlain
  | _, layout => layout.decode

theorem vec_agrees (item : Layout α) :
    (vec item).decode.Agrees (do Read.times item.decode (← Read.count)) := by
  rw [decode_vec]
  exact (Read.agrees_refl _).bind fun n ↦ Read.ensure_agrees fun _ _ _ ↦ le_of_times

theorem map_agrees [DecidableEq κ] (key : Layout κ) (value : Layout ν) :
    (map key value).decode.Agrees (do fillMap key.decode value.decode (← Read.count) 0 .empty) := by
  rw [decode_map]
  exact (Read.agrees_refl _).bind fun n ↦ Read.ensure_agrees fun _ _ _ ↦ le_of_fillMap

theorem agrees_decodePlain (layout : Layout α) : layout.decode.Agrees layout.decodePlain := by
  induction layout with
  | u8 | u16 | u32 | u64 | bool | bytes n | string => exact Read.agrees_refl _
  | option value ih =>
    rw [decode_option]
    refine (Read.agrees_refl Read.byte).bind fun b ↦ ?_
    by_cases h₀ : b = 0
    · simpa only [if_pos h₀] using Read.agrees_refl _
    by_cases h₁ : b = 1
    · simpa only [if_neg h₀, if_pos h₁] using ih.bind fun a ↦ Read.agrees_refl (pure (some a))
    · simpa only [if_neg h₀, if_neg h₁] using Read.agrees_refl _
  | vec item ih => exact (vec_agrees item).trans ((Read.agrees_refl _).bind ih.times)
  | map key value ihk ihv =>
    exact (map_agrees key value).trans
      ((Read.agrees_refl _).bind fun n ↦ ihk.fillMap ihv n 0 .empty)
  | pair first second ih₁ ih₂ =>
    exact ih₁.bind fun a ↦ ih₂.bind fun b ↦ Read.agrees_refl (pure (a, b))
  | union name n_lt payload ih =>
    rw [decode_union]
    exact (Read.agrees_refl _).bind fun i ↦ (ih i).bind fun a ↦
      Read.agrees_refl (pure (Sigma.mk i a))
  | via e layout ih => exact ih.map e.forth

/-- The least length is that of some encoding and of none less, also where the program gives it as a
number of bytes. So the check of a count takes nothing away: where it fails there is no value to be
read. -/
theorem minLength_exact :
    (∀ (α : Type) (layout : Layout α),
      (∀ a bytes, layout.encode a = .ok bytes → layout.minLength ≤ bytes.length) ∧
      (∃ a bytes, layout.encode a = .ok bytes ∧ bytes.length = layout.minLength) ∧
      layout.decode.Agrees layout.decodePlain) ∧
    (Program.Instruction.layout.minLength = 2 ∧ Program.Proposal.layout.minLength = 3 ∧
      Program.ConfigChange.layout.minLength = 2 ∧ Program.VoteAccountChange.layout.minLength = 2) ∧
    (∀ (α : Type) (item : Layout α),
      (vec item).decode.Agrees (do Read.times item.decode (← Read.count)) ∧
      ∀ n r s e, Read.ensure (n * item.minLength) r = (.error e, s) →
        ∃ e' s', Read.times item.decode n r = (.error e', s')) ∧
    ∀ (κ ν : Type) [DecidableEq κ] (key : Layout κ) (value : Layout ν),
      (map key value).decode.Agrees (do fillMap key.decode value.decode (← Read.count) 0 .empty) ∧
      ∀ n r s e, Read.ensure (n * (key.minLength + value.minLength)) r = (.error e, s) →
        ∃ e' s', fillMap key.decode value.decode n 0 .empty r = (.error e', s') := by
  refine ⟨fun α layout ↦ ?_, by decide, fun α item ↦ ?_, fun κ ν _ key value ↦ ?_⟩
  · exact ⟨fun a bytes ↦ layout.minLength_le, layout.exists_encode_minLength,
      layout.agrees_decodePlain⟩
  · exact ⟨vec_agrees item, fun n r s e ↦ Read.exists_error_of_ensure fun _ _ _ ↦ le_of_times⟩
  · exact ⟨map_agrees key value,
      fun n r s e ↦ Read.exists_error_of_ensure fun _ _ _ ↦ le_of_fillMap⟩

theorem minLength_exact_proposals :
    let proposals := Program.Proposal.layout
    let r := Reader.start [0, 1, 7, 2, 1, 9, 0, 1]
    proposals.encode (.config (.nftHolderShare 7)) = .ok [0, 1, 7] ∧
      proposals.minLength ≤ [0, 1, 7].length ∧
      Read.ensure (3 * proposals.minLength) r = (.error (.truncated 9 8), r) ∧
      ∃ e s, Read.times proposals.decode 3 r = (.error e, s) := by
  intro proposals r
  obtain ⟨hlength, -, hlists, -⟩ := minLength_exact
  have hencode : proposals.encode (.config (.nftHolderShare 7)) = .ok [0, 1, 7] := by decide +kernel
  have hensure : Read.ensure (3 * proposals.minLength) r = (.error (.truncated 9 8), r) := rfl
  exact ⟨hencode, (hlength _ proposals).1 _ _ hencode, hensure,
    (hlists _ proposals).2 3 r r _ hensure⟩

end Layout

end ValidatorClient.Codec
