import ValidatorClient.Proofs.Program.Instruction

namespace ValidatorClient

theorem Bytes.hasAtLeast_append {n : Nat} {bytes : Bytes} (h : hasAtLeast n bytes = true)
    (tail : Bytes) :
    hasAtLeast n (bytes ++ tail) = true := by
  rw [hasAtLeast_iff] at h ⊢
  rw [List.length_append]
  omega

namespace Codec

open Text

def Reader.extend (r : Reader) (tail : Bytes) : Reader := ⟨r.position, r.rest ++ tail⟩

/-- An outcome of a reader, unless it ran short of bytes. -/
def Settled {α : Type} (outcome : Except Error α) : Prop :=
  ∀ needed remaining, outcome ≠ .error (.truncated needed remaining)

theorem settled_ok {α : Type} (a : α) : Settled (.ok a : Except Error α) := nofun

theorem Settled.of_error {α β : Type} {e : Error} (h : Settled (.error e : Except Error α)) :
    Settled (.error e : Except Error β) := by
  intro needed remaining he
  cases he
  exact h needed remaining rfl

/-- More input changes no settled outcome, and no shortage is reported where there are enough
bytes. -/
structure Read.Stable {α : Type} (read : Read α) : Prop where
  settled : ∀ {r r' : Reader} {outcome : Except Error α}, read r = (outcome, r') → Settled outcome →
    ∀ tail, read (r.extend tail) = (outcome, r'.extend tail)
  shortage : ∀ {r r' : Reader} {needed remaining : Nat},
    read r = (.error (.truncated needed remaining), r') → remaining < needed

namespace Read

variable {α β κ ν : Type}

theorem stable_pure (a : α) : Stable (pure a : Read α) where
  settled h _ _ := by
    cases h
    rfl
  shortage h := by cases h

theorem stable_fail {e : Error} (he : ∀ needed remaining, e ≠ .truncated needed remaining) :
    Stable (fail e : Read α) where
  settled h _ _ := by
    cases h
    rfl
  shortage h := by
    cases h
    exact absurd rfl (he _ _)

theorem Stable.bind {read : Read α} {next : α → Read β} (h : read.Stable)
    (hnext : ∀ a, (next a).Stable) :
    (read >>= next).Stable where
  settled := by
    intro r r' outcome houtcome hsettled tail
    rcases hread : read r with ⟨e | a, s⟩
    · rw [bind_eq_error hread] at houtcome
      cases houtcome
      exact bind_eq_error (h.settled hread hsettled.of_error tail)
    · rw [bind_of_ok hread] at houtcome
      rw [bind_of_ok (h.settled hread (settled_ok a) tail)]
      exact (hnext a).settled houtcome hsettled tail
  shortage := by
    intro r r' needed remaining houtcome
    rcases hread : read r with ⟨e | a, s⟩
    · rw [bind_eq_error hread] at houtcome
      cases houtcome
      exact h.shortage hread
    · rw [bind_of_ok hread] at houtcome
      exact (hnext a).shortage houtcome

theorem Stable.map {read : Read α} (h : read.Stable) (f : α → β) : (f <$> read).Stable := by
  rw [map_eq_pure_bind]
  exact h.bind fun a ↦ stable_pure (f a)

theorem stable_of_ensured {n skip : Nat} (value : (bytes : Bytes) → bytes.hasAtLeast n = true → α)
    (hskip : skip ≤ n) (hvalue : ∀ bytes tail h h', value (bytes ++ tail) h' = value bytes h) :
    Stable fun r ↦
      if h : r.rest.hasAtLeast n then (.ok (value r.rest h), ⟨r.position + skip, r.rest.drop skip⟩)
      else (.error (.truncated n r.remaining), r) where
  settled := by
    intro r r' outcome h hsettled tail
    by_cases hn : r.rest.hasAtLeast n = true
    · rw [dif_pos hn] at h
      cases h
      have hn' : (r.extend tail).rest.hasAtLeast n = true := Bytes.hasAtLeast_append hn tail
      have hdrop : (r.rest ++ tail).drop skip = r.rest.drop skip ++ tail :=
        List.drop_append_of_le_length (Nat.le_trans hskip ((Bytes.hasAtLeast_iff n r.rest).1 hn))
      rw [dif_pos hn']
      simp only [Reader.extend, hdrop, hvalue r.rest tail hn hn']
    · rw [dif_neg hn] at h
      cases h
      exact absurd rfl (hsettled _ _)
  shortage := by
    intro r r' needed remaining h
    by_cases hn : r.rest.hasAtLeast n = true
    · rw [dif_pos hn] at h
      cases h
    · rw [dif_neg hn] at h
      cases h
      exact Nat.not_le.1 (mt (Bytes.hasAtLeast_iff n r.rest).2 hn)

theorem stable_ensure (n : Nat) : (ensure n).Stable :=
  stable_of_ensured (fun _ _ ↦ ()) (Nat.zero_le n) fun _ _ _ _ ↦ rfl

theorem take_append {n : Nat} {bytes : Bytes} (h : bytes.hasAtLeast n = true) (tail : Bytes) :
    (bytes ++ tail).take n = bytes.take n :=
  List.take_append_of_le_length ((Bytes.hasAtLeast_iff n bytes).1 h)

theorem stable_take (n : Nat) : (take n).Stable :=
  stable_of_ensured (fun bytes _ ↦ bytes.take n) (Nat.le_refl n)
    fun _ tail h _ ↦ take_append h tail

theorem stable_fixed (n : Nat) : (fixed n).Stable := by
  let value (bytes : Bytes) (h : bytes.hasAtLeast n = true) : FixedBytes n :=
    ⟨bytes.take n, List.length_take_of_le ((Bytes.hasAtLeast_iff n bytes).1 h)⟩
  exact stable_of_ensured value (Nat.le_refl n) fun _ tail h _ ↦ FixedBytes.ext (take_append h tail)

theorem stable_byte : byte.Stable where
  settled := by
    intro r r' outcome h hsettled tail
    obtain ⟨position, rest⟩ := r
    cases rest with
    | nil =>
      cases h
      exact absurd rfl (hsettled _ _)
    | cons b rest =>
      cases h
      rfl
  shortage := by
    intro r r' needed remaining h
    obtain ⟨position, rest⟩ := r
    cases rest with
    | nil =>
      cases h
      exact Nat.zero_lt_one
    | cons b rest => cases h

theorem stable_count : count.Stable := (stable_take 4).bind fun _ ↦ stable_pure _

theorem stable_word (k : Nat) : (word k).Stable := (stable_take k).bind fun _ ↦ stable_pure _

theorem stable_discriminant (name : String) (n : Nat) : (discriminant name n).Stable := by
  refine stable_byte.bind fun b ↦ ?_
  by_cases h : b.toNat < n
  · rw [dif_pos h]
    exact stable_pure _
  · rw [dif_neg h]
    exact stable_fail nofun

theorem Stable.times {read : Read α} (h : read.Stable) (n : Nat) : (times read n).Stable := by
  induction n with
  | zero => exact stable_pure []
  | succ n ih => exact h.bind fun a ↦ ih.bind fun as ↦ stable_pure (a :: as)

theorem Stable.fillMap [DecidableEq κ] {key : Read κ} {value : Read ν} (hkey : key.Stable)
    (hvalue : value.Stable) (n index : Nat) (m : OrderedMap κ ν) :
    (Codec.fillMap key value n index m).Stable := by
  induction n generalizing index m with
  | zero => exact stable_pure m
  | succ n ih =>
    refine hkey.bind fun k ↦ hvalue.bind fun v ↦ ?_
    -- whether a key is found twice is decided by the entries before it
    rcases m.insert k v with ⟨_ | old, m'⟩
    · exact ih (index + 1) m'
    · exact stable_fail nofun

end Read

namespace Layout

variable {α : Type}

theorem stable_bool : Read.Stable bool.decode := by
  rw [decode_bool]
  refine Read.stable_byte.bind fun b ↦ ?_
  split
  · exact Read.stable_pure false
  split
  · exact Read.stable_pure true
  · exact Read.stable_fail nofun

theorem stable_string : Read.Stable string.decode := by
  rw [decode_string]
  refine Read.stable_count.bind fun n ↦ (Read.stable_take n).bind fun text ↦ ?_
  cases Utf8.decode text with
  | ok s => exact Read.stable_pure s
  | error fault => exact Read.stable_fail nofun

theorem stable_option {value : Layout α} (h : value.decode.Stable) :
    Read.Stable (option value).decode := by
  rw [decode_option]
  refine Read.stable_byte.bind fun b ↦ ?_
  split
  · exact Read.stable_pure none
  split
  · exact h.bind fun a ↦ Read.stable_pure (some a)
  · exact Read.stable_fail nofun

theorem stable_decode (layout : Layout α) : layout.decode.Stable := by
  induction layout with
  | u8 => exact Read.stable_byte
  | u16 | u32 | u64 => exact (Read.stable_word _).map _
  | bool => exact stable_bool
  | bytes n => exact Read.stable_fixed n
  | string => exact stable_string
  | option value ih => exact stable_option ih
  -- the check of a count looks at all bytes left: more of them can only make it pass
  | vec item ih =>
    rw [decode_vec]
    exact Read.stable_count.bind fun n ↦ (Read.stable_ensure _).bind fun _ ↦ ih.times n
  | map key value ihk ihv =>
    rw [decode_map]
    exact Read.stable_count.bind fun n ↦ (Read.stable_ensure _).bind fun _ ↦ ihk.fillMap ihv n 0 _
  | pair first second ih₁ ih₂ => exact ih₁.bind fun a ↦ ih₂.bind fun b ↦ Read.stable_pure (a, b)
  | union name n_lt payload ih =>
    rw [decode_union]
    exact (Read.stable_discriminant name _).bind fun i ↦ (ih i).bind fun a ↦
      Read.stable_pure (Sigma.mk i a)
  | via e layout ih => exact ih.map e.forth

variable {layout : Layout α} {input : Bytes}

theorem decodeFront_append_of_ok {a : α} {n : Nat} (h : layout.decodeFront input = .ok (a, n))
    (tail : Bytes) : layout.decodeFront (input ++ tail) = .ok (a, n) := by
  obtain ⟨encoded, rest, he, hinput, hn⟩ := decodeFront_eq_ok_iff.1 h
  exact decodeFront_eq_ok_iff.2 ⟨encoded, rest ++ tail, he, by rw [hinput, List.append_assoc], hn⟩

theorem decodeFront_of_error {e : Error} {r : Reader}
    (h : layout.decode (Reader.start input) = (.error e, r)) :
    layout.decodeFront input = .error e := by
  rw [decodeFront, h]

theorem exists_of_decodeFront_eq_error {e : Error} (h : layout.decodeFront input = .error e) :
    ∃ r, layout.decode (Reader.start input) = (.error e, r) := by
  rcases hr : layout.decode (Reader.start input) with ⟨e' | a, r⟩
  · rw [decodeFront, hr] at h
    cases h
    exact ⟨r, rfl⟩
  · rw [decodeFront, hr] at h
    cases h

theorem decodeFront_append_of_error {e : Error} (h : layout.decodeFront input = .error e)
    (he : ∀ needed remaining, e ≠ .truncated needed remaining) (tail : Bytes) :
    layout.decodeFront (input ++ tail) = .error e := by
  obtain ⟨r, hr⟩ := exists_of_decodeFront_eq_error h
  have hsettled : Settled (.error e : Except Error α) := by
    intro needed remaining heq
    cases heq
    exact he needed remaining rfl
  exact decodeFront_of_error (layout.stable_decode.settled hr hsettled tail)

theorem lt_of_truncated {needed remaining : Nat}
    (h : layout.decodeFront input = .error (.truncated needed remaining)) : remaining < needed := by
  obtain ⟨r, hr⟩ := exists_of_decodeFront_eq_error h
  exact layout.stable_decode.shortage hr

theorem decodeFront_take {a : α} {encoded : Bytes} (he : layout.encode a = .ok encoded) {k : Nat}
    (hk : k < encoded.length) :
    ∃ needed remaining, layout.decodeFront (encoded.take k) =
      .error (.truncated needed remaining) := by
  have hwhole :
      layout.decodeFront (encoded.take k ++ encoded.drop k) = .ok (a, encoded.length) := by
    rw [List.take_append_drop]
    exact decodeFront_eq_ok_iff.2 ⟨encoded, [], he, (List.append_nil _).symm, rfl⟩
  cases h : layout.decodeFront (encoded.take k) with
  | ok p =>
    obtain ⟨a', n⟩ := p
    have hsame := (decodeFront_append_of_ok h (encoded.drop k)).symm.trans hwhole
    cases hsame
    obtain ⟨encoded', rest, -, htake, hn⟩ := decodeFront_eq_ok_iff.1 h
    have hlength := congrArg List.length htake
    rw [List.length_take, List.length_append] at hlength
    omega
  | error e =>
    by_contra hnot
    have he' : ∀ needed remaining, e ≠ .truncated needed remaining := by
      intro needed remaining heq
      exact hnot ⟨needed, remaining, by rw [heq]⟩
    have hfault := (decodeFront_append_of_error h he' (encoded.drop k)).symm.trans hwhole
    cases hfault

/-- What is decoded from the front of some bytes, and which fault is found there, does not depend on
the bytes that follow, as long as there are enough of them. So every encoding that is cut is found
to be too short. -/
theorem decodeFront_stable (layout : Layout α) :
    (∀ input a n, layout.decodeFront input = .ok (a, n) →
      ∀ tail, layout.decodeFront (input ++ tail) = .ok (a, n)) ∧
    (∀ input e, layout.decodeFront input = .error e →
      (∀ needed remaining, e ≠ .truncated needed remaining) →
      ∀ tail, layout.decodeFront (input ++ tail) = .error e) ∧
    (∀ a encoded, layout.encode a = .ok encoded → ∀ k < encoded.length, ∃ needed remaining,
      layout.decodeFront (encoded.take k) = .error (.truncated needed remaining)) ∧
    ∀ input needed remaining, layout.decodeFront input = .error (.truncated needed remaining) →
      remaining < needed :=
  ⟨fun _ _ _ h ↦ decodeFront_append_of_ok h, fun _ _ h ↦ decodeFront_append_of_error h,
    fun _ _ he _ hk ↦ decodeFront_take he hk, fun _ _ _ h ↦ lt_of_truncated h⟩

theorem decodeFront_stable_openProposal :
    let layout := Program.Instruction.layout
    let encoded : Bytes := [12, 0, 4, 2, 0, 0, 0, 0xC3, 0xA9, 4]
    layout.decodeFront (encoded ++ [7]) = .ok (.openProposal (.config (.validatorName "é")) 4, 10) ∧
      layout.decodeFront ([12, 0, 9] ++ [0, 0]) = .error (.unknownVariant "ConfigAccountType" 9) ∧
      (∃ needed remaining, layout.decodeFront (encoded.take 5) =
        .error (.truncated needed remaining)) ∧
      layout.decodeFront (encoded.take 5) = .error (.truncated 4 2) ∧ 2 < 4 := by
  intro layout encoded
  obtain ⟨hok, herror, hcut, hshort⟩ := decodeFront_stable layout
  have hencode : layout.encode (.openProposal (.config (.validatorName "é")) 4) = .ok encoded := by
    decide +kernel
  have hfront :
      layout.decodeFront encoded = .ok (.openProposal (.config (.validatorName "é")) 4, 10) := by
    decide +kernel
  have hfault : layout.decodeFront [12, 0, 9] = .error (.unknownVariant "ConfigAccountType" 9) := by
    decide +kernel
  have htruncated : layout.decodeFront (encoded.take 5) = .error (.truncated 4 2) := by
    decide +kernel
  exact ⟨hok _ _ _ hfront [7], herror _ _ hfault (fun _ _ ↦ nofun) [0, 0],
    hcut _ _ hencode 5 (by decide), htruncated, hshort _ _ _ htruncated⟩

end Layout

end Codec

end ValidatorClient
