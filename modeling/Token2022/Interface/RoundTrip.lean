/-
**What is packed is unpacked, and what was unpacked is packed again.**

An arm of `unpack_with_rest` accepts exactly the bytes that `pack` writes for the instructions of
its tag, followed by anything; the instructions that end in a list or a text take everything that
follows, so for them nothing may be left.

* `TokenInstruction.TakesRest` — the instructions that take everything that follows.
* **`TokenInstruction.unpackWithRest_eq_ok_iff`**, **`TransferFeeInstruction.exact`** — the readers
  accept exactly what is packed.
* **`instruction_roundTrip`** — both laws, of both types.
-/

import Token2022.Interface.Instruction

namespace Token2022.Interface

open Codec Fallible

/-- **The numbers of the kinds of authority.** -/
theorem authorityTypeFrom_eq_ok_iff {t : UInt8} {authorityType : AuthorityType} :
    authorityTypeFrom t = .ok authorityType ↔ t = authorityTypeInto authorityType := by
  constructor
  · intro read
    unfold authorityTypeFrom at read
    split at read
    all_goals first | cases read; rfl | cases read
  · rintro rfl
    cases authorityType <;> rfl

theorem exact_u8 : Exact (fun byte => [byte]) unpackU8 := exact_byte _

/-! ### The instructions of the program -/

namespace TokenInstruction

/-- The instruction ends in a value that takes everything that follows. -/
def TakesRest : TokenInstruction → Prop
  | .getAccountDataSize _ | .reallocate _ | .uiAmountToAmount _ | .batch _ => True
  | _ => False

/-- What an arm reads was packed. -/
theorem pack_of_unpackTagged {tag : UInt8} {bytes rest : List UInt8} {v : TokenInstruction}
    (ok : unpackTagged tag bytes = .ok (v, rest)) :
    tag :: bytes = v.pack ++ rest ∧ (v.TakesRest → rest = []) := by
  unfold unpackTagged at ok
  split at ok
  all_goals
    simp only [bind_eq_ok_iff, Prod.exists, exact_u8 _ _ _, exact_pubkey _ _ _, exact_u64 _ _ _,
      exact_pubkeyOption _ _ _, exact_u64Option _ _ _, exact_amountDecimals _ _ _,
      authorityTypeFrom_eq_ok_iff, unpackExtensionTypes_eq_ok_iff, unpackUiAmount_eq_ok_iff,
      Except.ok.injEq, Prod.mk.injEq, reduceCtorEq] at ok
  -- The arms that carry nothing, and those that carry one value.
  any_goals (obtain ⟨rfl, rfl⟩ := ok; exact ⟨rfl, False.elim⟩)
  any_goals (obtain ⟨value, _, rfl, rfl, rfl⟩ := ok; exact ⟨rfl, False.elim⟩)
  -- An amount with its decimals.
  any_goals (obtain ⟨amount, decimals, _, rfl, rfl, rfl⟩ := ok; exact ⟨rfl, False.elim⟩)
  -- The arms that take everything that follows.
  any_goals (obtain ⟨value, rfl, rfl, rfl⟩ := ok; exact ⟨(List.append_nil _).symm, fun _ => rfl⟩)
  any_goals (obtain ⟨rfl, rfl⟩ := ok; exact ⟨(List.append_nil _).symm, fun _ => rfl⟩)
  -- The two ways to initialize a mint.
  any_goals (
    obtain ⟨decimals, _, rfl, mintAuthority, _, rfl, freezeAuthority, _, rfl, rfl, rfl⟩ := ok
    exact ⟨by simp only [pack, List.append_assoc, List.cons_append, List.nil_append],
      False.elim⟩)
  -- The kind of authority is read from its number.
  obtain ⟨_, _, rfl, authorityType, rfl, newAuthority, _, rfl, rfl, rfl⟩ := ok
  exact ⟨rfl, False.elim⟩

theorem unpackWithRest_cons (tag : UInt8) (rest : List UInt8) :
    unpackWithRest (tag :: rest) = unpackTagged tag rest := rfl

/-- What is packed is read by the arm of its tag. -/
theorem unpackWithRest_pack (v : TokenInstruction) (rest : List UInt8)
    (all : v.TakesRest → rest = []) : unpackWithRest (v.pack ++ rest) = .ok (v, rest) := by
  cases v with
  | initializeAccount | revoke | closeAccount | freezeAccount | thawAccount | syncNative
  | initializeImmutableOwner | transferFeeExtension | confidentialTransferExtension
  | defaultAccountStateExtension | memoTransferExtension | createNativeMint
  | initializeNonTransferableMint | interestBearingMintExtension | cpiGuardExtension
  | transferHookExtension | confidentialTransferFeeExtension | withdrawExcessLamports
  | metadataPointerExtension | groupPointerExtension | groupMemberPointerExtension
  | confidentialMintBurnExtension | scaledUiAmountExtension | pausableExtension
  | permissionedBurnExtension => rfl
  | initializeMultisig m | initializeMultisig2 m =>
    show unpackWithRest (_ :: ([m] ++ rest)) = _
    rw [unpackWithRest_cons, unpackTagged, exact_u8.bind_read_write]
  | transfer amount | approve amount | mintTo amount | burn amount | amountToUiAmount amount =>
    show unpackWithRest (_ :: (u64Bytes amount ++ rest)) = _
    rw [unpackWithRest_cons, unpackTagged, exact_u64.bind_read_write]
  | initializeAccount2 owner | initializeAccount3 owner | initializePermanentDelegate owner =>
    show unpackWithRest (_ :: (addressBytes owner ++ rest)) = _
    rw [unpackWithRest_cons, unpackTagged, exact_pubkey.bind_read_write]
  | initializeMintCloseAuthority closeAuthority =>
    show unpackWithRest (_ :: (packPubkeyOption closeAuthority ++ rest)) = _
    rw [unpackWithRest_cons, unpackTagged, exact_pubkeyOption.bind_read_write]
  | unwrapLamports amount =>
    show unpackWithRest (_ :: (packU64Option amount ++ rest)) = _
    rw [unpackWithRest_cons, unpackTagged, exact_u64Option.bind_read_write]
  | transferChecked amount decimals | approveChecked amount decimals
  | mintToChecked amount decimals | burnChecked amount decimals =>
    show unpackWithRest (_ :: (u64Bytes amount ++ [decimals] ++ rest)) = _
    rw [unpackWithRest_cons, unpackTagged, exact_amountDecimals.bind_read_write (amount, decimals)]
  | setAuthority authorityType newAuthority =>
    show unpackWithRest (_ :: ([authorityTypeInto authorityType] ++
      (packPubkeyOption newAuthority ++ rest))) = _
    rw [unpackWithRest_cons, unpackTagged, exact_u8.bind_read_write]
    simp only [authorityTypeFrom_eq_ok_iff.mpr rfl]
    exact exact_pubkeyOption.bind_read_write newAuthority rest fun read =>
      .ok (setAuthority authorityType read.1, read.2)
  | initializeMint decimals mintAuthority freezeAuthority
  | initializeMint2 decimals mintAuthority freezeAuthority =>
    rw [pack, List.append_assoc, List.append_assoc]
    show unpackWithRest (_ :: ([decimals] ++ (addressBytes mintAuthority ++
      (packPubkeyOption freezeAuthority ++ rest)))) = _
    rw [unpackWithRest_cons, unpackTagged, exact_u8.bind_read_write]
    simp only [exact_pubkey.bind_read_write, exact_pubkeyOption.bind_read_write]
  | getAccountDataSize extensionTypes | reallocate extensionTypes =>
    obtain rfl := all trivial
    rw [List.append_nil]
    show unpackWithRest (_ :: (packExtensionTypes extensionTypes)) = _
    rw [unpackWithRest_cons, unpackTagged, unpackExtensionTypes_eq_ok_iff.mpr rfl]
    rfl
  | uiAmountToAmount uiAmount =>
    obtain rfl := all trivial
    rw [List.append_nil]
    show unpackWithRest (_ :: (textBytes uiAmount)) = _
    rw [unpackWithRest_cons, unpackTagged, unpackUiAmount_eq_ok_iff.mpr rfl]
    rfl
  | batch data =>
    obtain rfl := all trivial
    rw [List.append_nil]
    rfl

/-- **The reader accepts exactly what is packed.** -/
theorem unpackWithRest_eq_ok_iff {bytes rest : List UInt8} {v : TokenInstruction} :
    unpackWithRest bytes = .ok (v, rest) ↔
      bytes = v.pack ++ rest ∧ (v.TakesRest → rest = []) := by
  constructor
  · intro ok
    unfold unpackWithRest at ok
    simp only [bind_eq_ok_iff, Prod.exists, exact_u8 _ _ _] at ok
    obtain ⟨tag, _, rfl, arm⟩ := ok
    exact pack_of_unpackTagged arm
  · rintro ⟨rfl, all⟩
    exact unpackWithRest_pack v rest all

end TokenInstruction

/-! ### The instructions of the transfer fee -/

namespace TransferFeeInstruction

theorem unpackWithRest_cons (tag : UInt8) (rest : List UInt8) :
    unpackWithRest (tag :: rest) = unpackTagged tag rest := rfl

/-- **The reader accepts exactly what is packed.** -/
theorem exact : Exact pack unpackWithRest := by
  intro bytes v rest
  constructor
  · intro ok
    simp only [unpackWithRest, bind_eq_ok_iff, Prod.exists, exact_u8 _ _ _] at ok
    obtain ⟨tag, _, rfl, arm⟩ := ok
    unfold unpackTagged at arm
    split at arm
    all_goals
      simp only [bind_eq_ok_iff, Prod.exists, exact_u8 _ _ _, exact_u16 _ _ _, exact_u64 _ _ _,
        exact_pubkeyOption _ _ _, exact_amountDecimals _ _ _, Except.ok.injEq, Prod.mk.injEq,
        reduceCtorEq] at arm
    any_goals (obtain ⟨rfl, rfl⟩ := arm; rfl)
    · obtain ⟨configAuthority, _, rfl, withdrawAuthority, _, rfl, basisPoints, _, rfl, maximumFee,
        _, rfl, rfl, rfl⟩ := arm
      simp only [pack, List.append_assoc, List.cons_append, List.nil_append]
    · obtain ⟨amount, decimals, _, rfl, fee, _, rfl, rfl, rfl⟩ := arm
      simp only [pack, List.append_assoc, List.cons_append, List.nil_append]
    · obtain ⟨numTokenAccounts, _, rfl, rfl, rfl⟩ := arm
      rfl
    · obtain ⟨basisPoints, _, rfl, maximumFee, _, rfl, rfl, rfl⟩ := arm
      simp only [pack, List.append_assoc, List.cons_append, List.nil_append]
  · rintro rfl
    cases v with
    | withdrawWithheldTokensFromMint | harvestWithheldTokensToMint => rfl
    | withdrawWithheldTokensFromAccounts numTokenAccounts => rfl
    | initializeTransferFeeConfig transferFeeConfigAuthority withdrawWithheldAuthority
        transferFeeBasisPoints maximumFee =>
      rw [pack, List.append_assoc, List.append_assoc, List.append_assoc]
      show unpackWithRest (_ :: (packPubkeyOption transferFeeConfigAuthority ++
        (packPubkeyOption withdrawWithheldAuthority ++
          (u16Bytes transferFeeBasisPoints ++ (u64Bytes maximumFee ++ rest))))) = _
      rw [unpackWithRest_cons, unpackTagged, exact_pubkeyOption.bind_read_write]
      simp only [exact_pubkeyOption.bind_read_write, exact_u16.bind_read_write,
        exact_u64.bind_read_write]
    | transferCheckedWithFee amount decimals fee =>
      rw [pack, List.append_assoc]
      show unpackWithRest (_ :: (u64Bytes amount ++ [decimals] ++ (u64Bytes fee ++ rest))) = _
      rw [unpackWithRest_cons, unpackTagged,
        exact_amountDecimals.bind_read_write (amount, decimals)]
      simp only [exact_u64.bind_read_write]
    | setTransferFee transferFeeBasisPoints maximumFee =>
      rw [pack, List.append_assoc]
      show unpackWithRest (_ :: (u16Bytes transferFeeBasisPoints ++
        (u64Bytes maximumFee ++ rest))) = _
      rw [unpackWithRest_cons, unpackTagged, exact_u16.bind_read_write]
      simp only [exact_u64.bind_read_write]

end TransferFeeInstruction

/-! ### Both laws -/

/-- **What is packed is unpacked, and what is unpacked with nothing left is packed again.** -/
theorem instruction_roundTrip :
    ((∀ v : TokenInstruction, TokenInstruction.unpack v.pack = .ok v) ∧
      ∀ bytes v, TokenInstruction.unpackWithRest bytes = .ok (v, []) →
        TokenInstruction.pack v = bytes) ∧
    ((∀ v : TransferFeeInstruction, TransferFeeInstruction.unpack v.pack = .ok v) ∧
      ∀ bytes v, TransferFeeInstruction.unpackWithRest bytes = .ok (v, []) →
        TransferFeeInstruction.pack v = bytes) := by
  refine ⟨⟨fun v => ?_, fun bytes v ok => ?_⟩, fun v => ?_, fun bytes v ok => ?_⟩
  · have read := TokenInstruction.unpackWithRest_pack v [] fun _ => rfl
    rw [List.append_nil] at read
    rw [TokenInstruction.unpack, read]
    rfl
  · obtain ⟨same, -⟩ := TokenInstruction.unpackWithRest_eq_ok_iff.mp ok
    rw [same, List.append_nil]
  · have read := TransferFeeInstruction.exact.read_write v []
    rw [List.append_nil] at read
    rw [TransferFeeInstruction.unpack, read]
    rfl
  · rw [TransferFeeInstruction.exact.write_read ok, List.append_nil]

theorem instruction_roundTrip_setAuthority :
    TokenInstruction.unpack (TokenInstruction.pack (.setAuthority .pause none)) =
        .ok (.setAuthority .pause none) ∧
      TokenInstruction.pack (.setAuthority .pause none) = [6, 16, 0] :=
  ⟨instruction_roundTrip.1.1 _, instruction_roundTrip.1.2 [6, 16, 0] _ (by rfl)⟩

end Token2022.Interface
