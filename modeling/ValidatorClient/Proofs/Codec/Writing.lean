import ValidatorClient.Codec.Layout

namespace ValidatorClient.Codec

open Text

namespace Write

/-- The bytes that a write adds, and whether it fails, do not depend on those written before. -/
def Appends (w : Write) : Prop :=
  ∀ out, w.apply out = ((w.apply []).1, out ++ (w.apply []).2)

theorem apply_seq (w v : Write) (out : Bytes) :
    Change.apply (do w; v) out =
      match w.apply out with
      | (.ok (), out') => v.apply out'
      | (.error e, out') => (.error e, out') := by
  rcases h : w.apply out with ⟨_ | _, out'⟩ <;>
    simp only [Change.apply, ExceptT.run, bind, ExceptT.bind, ExceptT.mk, StateT.bind] at h ⊢ <;>
    rw [h] <;> rfl

theorem appends_fail (e : Error) : (fail e).Appends := fun out ↦ by
  simp [fail, Change.apply, ExceptT.run]

theorem appends_push (bytes : Bytes) : (push bytes).Appends := fun _ ↦ rfl

theorem appends_count (n : Nat) : (count n).Appends := by
  unfold count
  split
  · exact appends_push _
  · exact appends_fail _

theorem appends_seq {w v : Write} (hw : w.Appends) (hv : v.Appends) : Appends (do w; v) := by
  intro out
  rw [apply_seq, apply_seq, hw out]
  rcases w.apply [] with ⟨_ | _, added⟩
  · rfl
  · dsimp only
    rw [hv (out ++ added), hv added, List.append_assoc]

theorem appends_forM {α : Type} {write : α → Write} (h : ∀ a, (write a).Appends) (as : List α) :
    Appends (as.forM write) := by
  induction as with
  | nil =>
    intro out
    exact Prod.ext rfl (List.append_nil out).symm
  | cons a as ih => exact appends_seq (h a) ih

theorem output_seq {w v : Write} (hv : v.Appends) :
    output (do w; v) = do return (← w.output) ++ (← v.output) := by
  rw [output, apply_seq, output, output]
  rcases w.apply [] with ⟨_ | _, added⟩
  · rfl
  · dsimp only
    rw [hv added]
    rcases v.apply [] with ⟨_ | _, more⟩ <;> rfl

theorem output_forM {α : Type} {write : α → Write} (h : ∀ a, (write a).Appends) (as : List α) :
    output (as.forM write) = List.flatten <$> as.mapM fun a ↦ (write a).output := by
  induction as with
  | nil => rfl
  | cons a as ih =>
    have hs : (a :: as).forM write = (do write a; as.forM write) := rfl
    rw [hs, output_seq (appends_forM h as), ih, List.mapM_cons]
    cases (write a).output with
    | error e => rfl
    | ok bytes => cases as.mapM fun a ↦ (write a).output <;> rfl

theorem output_push (bytes : Bytes) : (push bytes).output = .ok bytes := rfl

theorem Appends.apply_eq_ok {w : Write} (hw : w.Appends) {bytes : Bytes} (h : w.output = .ok bytes)
    (out : Bytes) : w.apply out = (.ok (), out ++ bytes) := by
  rw [hw out]
  unfold output at h
  rcases hr : w.apply [] with ⟨_ | _, added⟩
  · rw [hr] at h
    cases h
  · rw [hr] at h
    cases h
    rfl

end Write

theorem encodeCount_eq_ok_iff {n : Nat} {bytes : Bytes} :
    encodeCount n = .ok bytes ↔ n < 0x100000000 ∧ bytes = Bytes.littleEndian 4 n := by
  unfold encodeCount Write.count
  split
  · rename_i h
    simp [Write.output_push, h, eq_comm]
  · rename_i h
    simp [Write.output, Write.fail, Change.apply, ExceptT.run, h]

namespace Layout

open Write

variable {α β κ ν : Type}

theorem appends_write (layout : Layout α) (a : α) : (layout.write a).Appends := by
  induction layout with
  | u8 | u16 | u32 | u64 | bool | bytes n => exact appends_push _
  | string => exact appends_seq (appends_count _) (appends_push _)
  | option value ih =>
    cases a with
    | none => exact appends_push _
    | some a => exact appends_seq (appends_push _) (ih a)
  | vec item ih => exact appends_seq (appends_count _) (appends_forM ih a)
  | map key value ihk ihv =>
    unfold write
    split
    · exact appends_fail _
    · exact appends_seq (appends_count _)
        (appends_forM (fun (k, v) ↦ appends_seq (ihk k) (ihv v)) _)
  | pair first second ih₁ ih₂ => exact appends_seq (ih₁ a.1) (ih₂ a.2)
  | union name n_lt payload ih => exact appends_seq (appends_push _) (ih a.1 a.2)
  | via e layout ih => exact ih (e.back a)

theorem encode_string (s : String) :
    encode .string s = do
      return (← encodeCount (Utf8.encode s).length) ++ Utf8.encode s :=
  output_seq (appends_push _)

theorem encode_some (value : Layout α) (a : α) :
    (option value).encode (some a) = do return 1 :: (← value.encode a) :=
  output_seq (appends_write value a)

theorem encode_vec (item : Layout α) (as : List α) :
    (vec item).encode as = do
      return (← encodeCount as.length) ++ (← List.flatten <$> as.mapM item.encode) := by
  have h := output_forM (appends_write item) as
  exact (output_seq (appends_forM (appends_write item) as)).trans (by rw [h]; rfl)

theorem encode_map [DecidableEq κ] (key : Layout κ) (value : Layout ν) (m : OrderedMap κ ν)
    (hm : m.firstDuplicate = none) :
    (map key value).encode m = do
      return (← encodeCount m.length) ++
        (← List.flatten <$> m.entries.mapM fun p ↦ (pair key value).encode p) := by
  have ha (p : κ × ν) : Appends ((pair key value).write p) := appends_write _ p
  have h := output_forM ha m.entries
  have hw : (map key value).write m =
      (do Write.count m.length; m.entries.forM (pair key value).write) := by
    simp only [write, hm]
  rw [encode, hw, output_seq (appends_forM ha m.entries), h]
  rfl

theorem encode_map_of_duplicate [DecidableEq κ] (key : Layout κ) (value : Layout ν)
    (m : OrderedMap κ ν) {index : Nat} (hm : m.firstDuplicate = some index) :
    (map key value).encode m = .error (.duplicateKey index) := by
  simp [encode, write, hm, Write.output, Write.fail, Change.apply, ExceptT.run]

theorem encode_pair (first : Layout α) (second : Layout β) (p : α × β) :
    (pair first second).encode p = do return (← first.encode p.1) ++ (← second.encode p.2) :=
  output_seq (appends_write second p.2)

theorem encode_union (name : String) {n : Nat} (n_lt : n < 256) {Payload : Fin (n + 1) → Type}
    (payload : (i : Fin (n + 1)) → Layout (Payload i)) (a : Σ i, Payload i) :
    (union name n_lt payload).encode a = do
      return UInt8.ofNat a.1.val :: (← (payload a.1).encode a.2) :=
  output_seq (appends_write (payload a.1) a.2)

theorem encode_via (e : Bijection α β) (layout : Layout α) (b : β) :
    (via e layout).encode b = layout.encode (e.back b) := rfl

end Layout

end ValidatorClient.Codec
