import DexFeed.Proofs.Payload.Launch
import DexFeed.Proofs.Payload.Tagged

/-!
# Instructions in full

An instruction is described by its interface: the arguments behind its tag in order, what the tag
alone implies, and the list of its accounts. `roster` writes that list out position by position, the
accounts that no event keeps included, so that the position of an account is its place in the list.
The data decide whether an instruction is understood; each account then goes to the field that the
roster names at its position.
-/

namespace DexFeed

/-! ## Filling in accounts -/

namespace Accounts

variable {accounts : Accounts} {v : Valuation} {slots : List Slot}

/-- A position that names no key reads as the zero key: the instruction may refer to fewer accounts,
or to a key that the transaction does not have. -/
theorem key_eq_zero {position : Nat}
    (h : ∀ i, accounts.indices[position]? = some i → accounts.keys.length ≤ i.toNat) :
    accounts.key position = Key.zero := by
  cases hi : accounts.indices[position]? with
  | none => simp only [key, hi]
  | some i =>
    have outside : accounts.keys[i.toNat]? = none := List.getElem?_eq_none (h i hi)
    simp only [key, hi, outside, Option.getD_none]

/-- A field without an account is left as it is. -/
theorem fill_of_not_mem {f : Field} (h : f ∉ slots.map Slot.field) :
    accounts.fill v slots f = v f := by
  induction slots generalizing v with
  | nil => rfl
  | cons slot slots ih =>
    obtain ⟨hne, hmem⟩ := not_or.1 fun hf => h (List.mem_cons.2 hf)
    rw [fill, ih hmem, Valuation.set_of_ne (Ne.symm hne)]

/-- A field with an account gets the key at its position, whatever the other accounts are. -/
theorem fill_of_mem (nodup : (slots.map Slot.field).Nodup) {slot : Slot} (h : slot ∈ slots) :
    accounts.fill v slots slot.field = slot.isKey ▸ accounts.key slot.position := by
  induction slots generalizing v with
  | nil => contradiction
  | cons first slots ih =>
    obtain ⟨hnew, hnodup⟩ := List.nodup_cons.1 nodup
    rw [fill]
    cases List.mem_cons.1 h with
    | inl heq =>
      subst heq
      rw [fill_of_not_mem hnew, Valuation.set_self]
    | inr hmem => exact ih hnodup hmem

end Accounts

namespace InstructionKind

/-! ## Interfaces -/

/-- The variant of the event of a kind. -/
def variant : InstructionKind → Variant
  | pumpFunCreate => .pumpFunCreate
  | pumpFunBuy | pumpFunSell => .pumpFunTrade
  | pumpFunMigrate => .pumpFunMigrate
  | pumpSwapBuy => .pumpSwapBuy
  | pumpSwapSell => .pumpSwapSell
  | pumpSwapCreatePool => .pumpSwapCreatePool
  | pumpSwapDeposit => .pumpSwapDeposit
  | pumpSwapWithdraw => .pumpSwapWithdraw
  | bonkBuyExactIn | bonkBuyExactOut | bonkSellExactIn | bonkSellExactOut => .bonkTrade
  | bonkInitialize => .bonkPoolCreate
  | bonkMigrateToAmm => .bonkMigrateAmm
  | cpmmSwapBaseInput | cpmmSwapBaseOutput => .raydiumCpmmSwap
  | cpmmInitialize => .raydiumCpmmInitialize
  | cpmmDeposit => .raydiumCpmmDeposit
  | cpmmWithdraw => .raydiumCpmmWithdraw
  | clmmSwap | clmmSwapV2 => .raydiumClmmSwap
  | clmmCreatePool => .raydiumClmmCreatePool
  | clmmOpenPositionV2 | clmmOpenPositionToken22 => .raydiumClmmOpenPosition
  | clmmClosePosition => .raydiumClmmClosePosition
  | clmmIncreaseLiquidity | clmmIncreaseLiquidityV2 => .raydiumClmmIncreaseLiquidity
  | clmmDecreaseLiquidity | clmmDecreaseLiquidityV2 => .raydiumClmmDecreaseLiquidity
  | orcaSwap => .orcaSwap
  | orcaIncreaseLiquidity => .orcaLiquidityIncreased
  | orcaDecreaseLiquidity => .orcaLiquidityDecreased
  | orcaInitializePool | orcaInitializePoolV2 => .orcaPoolInitialized

/-- Arguments that are all kept. -/
def kept (fields : List Field) : List Parameter :=
  fields.map .field

/-- The arguments behind the tag, in order; those of a launch depend on its curve. -/
def arguments (kind : InstructionKind) (constant : Bool) : List Parameter :=
  match kind with
  | pumpFunCreate => kept [.name, .symbol, .uri]
  | pumpFunBuy => kept [.amount, .maxSolCost]
  | pumpFunSell => kept [.amount, .minSolOutput]
  | pumpFunMigrate => []
  | pumpSwapBuy => kept [.baseAmountOut, .maxQuoteAmountIn]
  | pumpSwapSell => kept [.baseAmountIn, .minQuoteAmountOut]
  | pumpSwapCreatePool => kept [.index, .baseAmountIn, .quoteAmountIn]
  | pumpSwapDeposit | pumpSwapWithdraw => kept [.lpTokenAmount, .baseAmountLimit, .quoteAmountLimit]
  | bonkBuyExactIn | bonkSellExactIn => kept [.amountIn, .minimumAmountOut, .shareFeeRate]
  | bonkBuyExactOut | bonkSellExactOut => kept [.amountOut, .maximumAmountIn, .shareFeeRate]
  | bonkInitialize => kept (Launch.fields constant)
  | bonkMigrateToAmm => kept [.baseLotSize, .quoteLotSize, .marketVaultSignerNonce]
  | cpmmSwapBaseInput => kept [.inputAmount, .minimumAmountOut]
  | cpmmSwapBaseOutput => kept [.maxAmountIn, .outputAmount]
  | cpmmInitialize => kept [.initAmount0, .initAmount1, .openTime]
  | cpmmDeposit | cpmmWithdraw => kept [.lpTokenAmount, .token0Limit, .token1Limit]
  | clmmSwap | clmmSwapV2 =>
    kept [.amount, .otherAmountThreshold, .sqrtPriceLimitX64, .isBaseInput]
  | clmmCreatePool => kept [.sqrtPriceX64, .openTime]
  | clmmOpenPositionV2 | clmmOpenPositionToken22 =>
    kept [.tickLowerIndex, .tickUpperIndex] ++ [.unkept .i32, .unkept .i32] ++
      kept [.liquidity, .amount0Max, .amount1Max, .withMetadata]
  | clmmClosePosition => []
  | clmmIncreaseLiquidity | clmmIncreaseLiquidityV2 => kept [.liquidity, .amount0Max, .amount1Max]
  | clmmDecreaseLiquidity | clmmDecreaseLiquidityV2 => kept [.liquidity, .amount0Min, .amount1Min]
  | orcaSwap =>
    kept [.amount, .otherAmountThreshold, .sqrtPriceLimit, .amountSpecifiedIsInput, .aToB]
  | orcaIncreaseLiquidity | orcaDecreaseLiquidity => kept [.liquidity, .tokenLimitA, .tokenLimitB]
  | orcaInitializePool => .unkept .u8 :: kept [.tickSpacing, .initialSqrtPrice]
  | orcaInitializePoolV2 => kept [.tickSpacing, .initialSqrtPrice]

/-- The field that a later version of an instruction appends to its arguments. -/
def appended : InstructionKind → List Field
  | pumpFunCreate => [.creator]
  | _ => []

/-- What the tag alone says: the side of a trade, and the amount that is exact. -/
def implied : InstructionKind → List Entry
  | pumpFunBuy => [⟨.isBuy, true⟩]
  | pumpFunSell => [⟨.isBuy, false⟩]
  | bonkBuyExactIn => [⟨.tradeDirection, Side.buy⟩, ⟨.exactIn, true⟩]
  | bonkBuyExactOut => [⟨.tradeDirection, Side.buy⟩, ⟨.exactIn, false⟩]
  | bonkSellExactIn => [⟨.tradeDirection, Side.sell⟩, ⟨.exactIn, true⟩]
  | bonkSellExactOut => [⟨.tradeDirection, Side.sell⟩, ⟨.exactIn, false⟩]
  | cpmmSwapBaseInput => [⟨.baseInput, true⟩]
  | cpmmSwapBaseOutput => [⟨.baseInput, false⟩]
  | _ => []

/-- Accounts that an event keeps. -/
def named (fields : List Field) : List (Option Field) :=
  fields.map some

/-- Accounts that no event keeps. -/
def unnamed (n : Nat) : List (Option Field) :=
  List.replicate n none

/-- The accounts of an instruction, in the order in which it lists them. -/
def roster : InstructionKind → List (Option Field)
  | pumpFunCreate =>
    named [.mint, .mintAuthority, .bondingCurve, .associatedBondingCurve, .global] ++ unnamed 1 ++
      named [.metadataAccount, .user]
  | pumpFunBuy =>
    named [.global, .feeRecipient, .mint, .bondingCurve, .associatedBondingCurve, .associatedUser,
      .user] ++ unnamed 2 ++ named [.creatorVault]
  | pumpFunSell =>
    named [.global, .feeRecipient, .mint, .bondingCurve, .associatedBondingCurve, .associatedUser,
      .user] ++ unnamed 1 ++ named [.creatorVault] ++ unnamed 1
  | pumpFunMigrate =>
    named [.global, .withdrawAuthority, .mint, .bondingCurve, .associatedBondingCurve, .user] ++
      unnamed 3 ++ named [.pool]
  | pumpSwapBuy | pumpSwapSell =>
    named [.pool, .user, .globalConfig, .baseMint, .quoteMint, .userBaseTokenAccount,
      .userQuoteTokenAccount, .poolBaseTokenAccount, .poolQuoteTokenAccount, .protocolFeeRecipient,
      .protocolFeeRecipientTokenAccount]
  | pumpSwapCreatePool =>
    named [.pool, .globalConfig, .creator, .baseMint, .quoteMint, .lpMint, .userBaseTokenAccount,
      .userQuoteTokenAccount] ++ unnamed 1 ++ named [.poolBaseTokenAccount, .poolQuoteTokenAccount]
  | pumpSwapDeposit | pumpSwapWithdraw =>
    named [.pool, .globalConfig, .user, .baseMint, .quoteMint, .lpMint, .userBaseTokenAccount,
      .userQuoteTokenAccount, .userPoolTokenAccount, .poolBaseTokenAccount, .poolQuoteTokenAccount]
  | bonkBuyExactIn | bonkBuyExactOut | bonkSellExactIn | bonkSellExactOut =>
    named [.payer] ++ unnamed 1 ++
      named [.globalConfig, .platformConfig, .poolState, .userBaseToken, .userQuoteToken,
        .baseVault, .quoteVault, .baseTokenMint, .quoteTokenMint]
  | bonkInitialize =>
    named [.payer, .creator, .config, .platformConfig] ++ unnamed 1 ++
      named [.poolState, .baseMint, .quoteMint, .baseVault, .quoteVault]
  | bonkMigrateToAmm =>
    named [.payer, .baseMint, .quoteMint] ++ unnamed 1 ++ named [.market] ++ unnamed 8 ++
      named [.ammPool] ++ unnamed 2 ++ named [.ammLpMint] ++ unnamed 6 ++ named [.poolState]
  | cpmmSwapBaseInput | cpmmSwapBaseOutput =>
    named [.payer] ++ unnamed 1 ++
      named [.ammConfig, .pool, .inputTokenAccount, .outputTokenAccount, .inputVault,
        .outputVault] ++ unnamed 2 ++ named [.inputTokenMint, .outputTokenMint, .observationState]
  | cpmmInitialize =>
    named [.creator, .ammConfig] ++ unnamed 1 ++ named [.pool, .token0Mint, .token1Mint, .lpMint] ++
      unnamed 3 ++ named [.token0Vault, .token1Vault]
  | cpmmDeposit | cpmmWithdraw =>
    named [.owner] ++ unnamed 1 ++ named [.pool, .ownerLpToken] ++ unnamed 2 ++
      named [.token0Vault, .token1Vault] ++ unnamed 2 ++ named [.vault0Mint, .vault1Mint, .lpMint]
  | clmmSwap | clmmSwapV2 =>
    named [.sender, .ammConfig, .pool, .inputTokenAccount, .outputTokenAccount, .inputVault,
      .outputVault]
  | clmmCreatePool =>
    named [.creator, .ammConfig, .pool, .tokenMint0, .tokenMint1, .tokenVault0, .tokenVault1]
  | clmmOpenPositionV2 =>
    named [.minter, .nftOwner, .positionNftMint, .positionNftAccount] ++ unnamed 1 ++
      named [.pool] ++ unnamed 3 ++ named [.personalPosition]
  | clmmOpenPositionToken22 =>
    named [.minter, .nftOwner, .positionNftMint, .positionNftAccount, .pool] ++ unnamed 3 ++
      named [.personalPosition]
  | clmmClosePosition =>
    named [.nftOwner, .positionNftMint, .positionNftAccount, .personalPosition]
  | clmmIncreaseLiquidity | clmmIncreaseLiquidityV2 =>
    named [.nftOwner, .nftAccount, .pool] ++ unnamed 1 ++ named [.personalPosition]
  | clmmDecreaseLiquidity | clmmDecreaseLiquidityV2 =>
    named [.nftOwner, .nftAccount, .personalPosition, .pool]
  | orcaSwap =>
    unnamed 1 ++
      named [.tokenAuthority, .whirlpool, .tokenOwnerAccountA, .tokenVaultA, .tokenOwnerAccountB,
        .tokenVaultB] ++ unnamed 4
  | orcaIncreaseLiquidity | orcaDecreaseLiquidity =>
    named [.whirlpool] ++ unnamed 1 ++
      named [.positionAuthority, .position, .positionTokenAccount, .tokenOwnerAccountA,
        .tokenOwnerAccountB, .tokenVaultA, .tokenVaultB] ++ unnamed 2
  | orcaInitializePool =>
    named [.whirlpoolsConfig, .tokenMintA, .tokenMintB, .funder, .whirlpool, .tokenVaultA,
      .tokenVaultB, .feeTier]
  | orcaInitializePoolV2 =>
    named [.whirlpoolsConfig, .tokenMintA, .tokenMintB] ++ unnamed 2 ++
      named [.funder, .whirlpool, .tokenVaultA, .tokenVaultB, .feeTier, .tokenProgramA,
        .tokenProgramB]

/-- Whether a kind can be called with the values of a valuation. -/
def Admits (kind : InstructionKind) (v : Valuation) : Prop :=
  kind = .bonkInitialize → Launch.Known v

/-- The arguments of a kind that goes with the values of a valuation. -/
def argued (kind : InstructionKind) (v : Valuation) : List Parameter :=
  kind.arguments (Launch.isConstant v)

/-- The byte strings that spell the arguments of a kind with the values of a valuation. -/
def Spells (kind : InstructionKind) (v : Valuation) (s : Bytes) : Prop :=
  kind.Admits v ∧ v.Spells (kind.argued v) s

variable {kind : InstructionKind} {form : Form}

/-! ## The table of formats -/

/-- All forms of an instruction report its variant. -/
theorem variant_of_mem_format (h : form ∈ kind.format) : form.variant = kind.variant := by
  have hall : ∀ form ∈ kind.format, form.variant = kind.variant := by
    cases kind <;> decide
  exact hall form h

/-- Every form of a kind is steady. -/
theorem steady_of_mem_format (h : form ∈ kind.format) : form.Steady := by
  have hall : ∀ form ∈ kind.format, form.Steady := by
    cases kind <;> decide
  exact hall form h

/-- A form fills in arguments, what its tag implies, and what a later version appends. -/
theorem fills_of_mem_format (h : form ∈ kind.format) : ∀ f ∈ form.fills,
    .field f ∈ form.reads ∨ f ∈ kind.implied.map Sigma.fst ∨ f ∈ kind.appended := by
  have hall : ∀ form ∈ kind.format, ∀ f ∈ form.fills,
      .field f ∈ form.reads ∨ f ∈ kind.implied.map Sigma.fst ∨ f ∈ kind.appended := by
    cases kind <;> decide
  exact hall form h

/-- What a form is given is what the tag implies. -/
theorem gives_of_mem_format (h : form ∈ kind.format) : form.gives = kind.implied := by
  cases kind with
  | bonkInitialize => rcases Launch.mem_format.1 h with rfl | rfl | rfl <;> rfl
  | _ =>
    rw [List.mem_singleton.1 h]
    rfl

/-- At most one form of a kind reads a body. -/
theorem format_exclusive (kind : InstructionKind) : kind.format.Exclusive := by
  cases kind with
  | bonkInitialize => exact Launch.format_exclusive _
  | _ => exact List.pairwise_singleton _ _

/-- Every form but those of a launch asks for no values and reads the arguments. -/
theorem reads_of_mem_format (hkind : kind ≠ .bonkInitialize) (h : form ∈ kind.format)
    (constant : Bool) : form.demands.isEmpty ∧ form.reads = kind.arguments constant := by
  have hall : ∀ constant, ∀ form ∈ kind.format,
      form.demands.isEmpty ∧ form.reads = kind.arguments constant := by
    cases kind <;> first | contradiction | decide
  exact hall constant form h

/-- Every kind has a form. -/
theorem format_ne_nil (kind : InstructionKind) : kind.format ≠ [] := by
  cases kind <;> exact List.cons_ne_nil _ _

/-- A kind of instruction is described by its variant and its arguments. -/
theorem format_follows (kind : InstructionKind) :
    kind.format.Follows (fun t v => t = kind.variant ∧ kind.Admits v) fun _ => kind.argued where
  steady _ h := steady_of_mem_format h
  exclusive := format_exclusive kind
  sound form h v hd := by
    by_cases hkind : kind = .bonkInitialize
    · subst hkind
      obtain ⟨known, hreads⟩ := Launch.reads_of_demands rfl h hd
      exact ⟨⟨variant_of_mem_format h, fun _ => known⟩, hreads⟩
    · obtain ⟨-, hreads⟩ := reads_of_mem_format hkind h (Launch.isConstant v)
      exact ⟨⟨variant_of_mem_format h, fun e => absurd e hkind⟩, hreads⟩
  complete t v h := by
    by_cases hkind : kind = .bonkInitialize
    · subst hkind
      have hbefore : ([] : List Item).flatMap Item.demands = [] := rfl
      obtain ⟨form, hform, hd⟩ := Launch.exists_form hbefore (h.2 rfl)
      exact ⟨form, hform, (variant_of_mem_format hform).trans h.1.symm, hd⟩
    · obtain ⟨form, hform⟩ := List.exists_mem_of_ne_nil _ (format_ne_nil kind)
      obtain ⟨hnone, -⟩ := reads_of_mem_format hkind hform true
      rw [List.isEmpty_iff] at hnone
      refine ⟨form, hform, (variant_of_mem_format hform).trans h.1.symm, ?_⟩
      rw [hnone]
      exact List.forall_mem_nil _

/-! ## The table of accounts -/

/-- The slots of a kind are the named places of its roster. -/
theorem slots_eq_roster (kind : InstructionKind) :
    kind.slots.map (fun slot => (slot.position, slot.field)) =
      kind.roster.zipIdx.filterMap fun p => p.1.map fun f => (p.2, f) := by
  cases kind <;> rfl

/-- Every account that the roster names has its slot at that position. -/
theorem mem_slots_of_roster {i : Nat} {f : Field} (h : kind.roster[i]? = some (some f)) :
    ∃ slot ∈ kind.slots, slot.position = i ∧ slot.field = f := by
  have hmem : (i, f) ∈ kind.slots.map fun slot => (slot.position, slot.field) := by
    rw [slots_eq_roster, List.mem_filterMap]
    exact ⟨(some f, i), List.mk_mem_zipIdx_iff_getElem?.2 h, rfl⟩
  obtain ⟨slot, hslot, heq⟩ := List.mem_map.1 hmem
  rw [Prod.mk.injEq] at heq
  exact ⟨slot, hslot, heq⟩

/-- Every field with a slot is named in the roster. -/
theorem mem_roster_of_mem_slots {f : Field} (h : f ∈ kind.slots.map Slot.field) :
    some f ∈ kind.roster := by
  obtain ⟨slot, hslot, rfl⟩ := List.mem_map.1 h
  have hmem : (slot.position, slot.field) ∈
      kind.slots.map fun slot => (slot.position, slot.field) := List.mem_map.2 ⟨slot, hslot, rfl⟩
  rw [slots_eq_roster, List.mem_filterMap] at hmem
  obtain ⟨⟨o, i⟩, hpair, heq⟩ := hmem
  obtain ⟨f, rfl, hf⟩ := Option.map_eq_some_iff.1 heq
  rw [Prod.mk.injEq] at hf
  exact hf.2 ▸ List.mem_of_getElem? (List.mk_mem_zipIdx_iff_getElem?.1 hpair)

/-- No field has two accounts. -/
theorem slots_nodup (kind : InstructionKind) : (kind.slots.map Slot.field).Nodup := by
  cases kind <;> decide

/-- No argument and nothing that the tag implies is an account. -/
theorem not_mem_slots_of_mem_format (h : form ∈ kind.format) :
    ∀ f ∈ form.fills, f ∉ kind.slots.map Slot.field := by
  have hall : ∀ form ∈ kind.format, ∀ f ∈ form.fills, f ∉ kind.slots.map Slot.field := by
    cases kind <;> decide
  exact hall form h

/-- The variant of a kind has a field for everything that the kind states. -/
theorem mem_fields_of_mem_format (h : form ∈ kind.format) :
    ∀ f ∈ form.fills ++ kind.slots.map Slot.field, f ∈ kind.variant.fields := by
  have hall : ∀ form ∈ kind.format,
      ∀ f ∈ form.fills ++ kind.slots.map Slot.field, f ∈ kind.variant.fields := by
    cases kind <;> decide
  exact hall form h

/-- A kind is found by its program and its tag. -/
theorem find?_tag (kind : InstructionKind) (body : Bytes) :
    find? kind.protocol (kind.tag.bytes ++ body) = some kind :=
  find?_eq_some_iff.2 ⟨rfl, List.prefix_append _ _⟩

/-! ## The event of an instruction -/

variable {accounts : Accounts} {body s : Bytes} {m : Metadata} {e : Event} {u v w : Valuation}

/-- The event that a form gives has the values that the form and the accounts give. -/
theorem get_ofValuation_fill (hform : form ∈ kind.format)
    (hzero : ∀ f ∉ form.fills, w f = f.type.zero) (accounts : Accounts) (m : Metadata) :
    (Event.ofValuation m kind.variant (accounts.fill w kind.slots)).get =
      accounts.fill w kind.slots := by
  refine Event.get_ofValuation_of_zero (fun f hf => ?_) m
  obtain ⟨hfills, hslots⟩ := not_or.1 fun h =>
    hf (mem_fields_of_mem_format hform f (List.mem_append.2 h))
  rw [Accounts.fill_of_not_mem hslots, hzero f hfills]

/-- Arguments that are spelled behind the tag are understood, whatever follows and whatever accounts
the instruction lists; these then stand in the fields of the roster. -/
theorem event?_of_spells (h : kind.Spells v s) (rest : Bytes) (accounts : Accounts)
    (m : Metadata) :
    ∃ e, kind.event? (s ++ rest) accounts m = some e ∧ e.metadata = m ∧ e.variant = kind.variant ∧
      (∀ f, .field f ∈ kind.argued v → e.get f = v f) ∧ e.get.Has kind.implied ∧
      (∀ (i : Nat) (f : Field), kind.roster[i]? = some (some f) →
        ∃ isKey : f.type = .key, e.get f = isKey ▸ accounts.key i) ∧
      ∀ f, .field f ∉ kind.argued v → f ∉ kind.implied.map Sigma.fst → f ∉ kind.appended →
        some f ∉ kind.roster → e.get f = f.type.zero := by
  obtain ⟨hadmits, hspells⟩ := h
  obtain ⟨form, hform, -, hreads, w, hread, hvalues, hgives, hzero, -⟩ :=
    (format_follows kind).read_of_spells ⟨rfl, hadmits⟩ hspells rest
  have hget : (Event.ofValuation m kind.variant (accounts.fill w kind.slots)).get =
      accounts.fill w kind.slots := get_ofValuation_fill hform hzero accounts m
  -- What the form fills in is no account, so the accounts leave it.
  have unfilled : ∀ f ∈ form.fills, accounts.fill w kind.slots f = w f := fun f hf =>
    Accounts.fill_of_not_mem (not_mem_slots_of_mem_format hform f hf)
  refine ⟨Event.ofValuation m kind.variant (accounts.fill w kind.slots),
    by rw [event?, hread]; rfl, rfl, rfl, ?_, ?_, ?_, ?_⟩
  · intro f hf
    have hfills : f ∈ form.fills := Form.mem_fills_of_mem_reads (hreads ▸ hf)
    rw [hget, unfilled f hfills, hvalues f hf]
  · rw [hget, ← gives_of_mem_format hform]
    exact hgives.congr fun e he => unfilled e.1 (Form.mem_fills_of_mem_gives he)
  · intro i f hroster
    obtain ⟨slot, hslot, rfl, rfl⟩ := mem_slots_of_roster hroster
    exact ⟨slot.isKey, by rw [hget, Accounts.fill_of_mem (slots_nodup kind) hslot]⟩
  · intro f hargued himplied happended hroster
    have hslots : f ∉ kind.slots.map Slot.field := fun h => hroster (mem_roster_of_mem_slots h)
    have hfills : f ∉ form.fills := by
      intro h
      rcases fills_of_mem_format hform f h with h | h | h
      · exact hargued (hreads ▸ h)
      · exact himplied h
      · exact happended h
    rw [hget, Accounts.fill_of_not_mem hslots, hzero f hfills]

/-- What is understood begins with a spelling of arguments. -/
theorem spells_of_event? (h : kind.event? body accounts m = some e) :
    ∃ v s, s <+: body ∧ kind.Spells v s := by
  obtain ⟨⟨t, v⟩, hread, -⟩ := Option.map_eq_some_iff.1 h
  obtain ⟨-, -, -, ⟨-, hadmits⟩, ⟨s, hs, hspells⟩, -⟩ :=
    (format_follows kind).spells_of_read hread
  exact ⟨v, s, hs, hadmits, hspells⟩

end InstructionKind

namespace Payload

/-- Behind its own tag an instruction of a program is read by its own kind. -/
theorem instruction?_tag (kind : InstructionKind) (body : Bytes) (accounts : Accounts)
    (m : Metadata) : instruction? kind.protocol (kind.tag.bytes ++ body) accounts m =
      kind.event? body accounts m := by
  have hdrop : (kind.tag.bytes ++ body).drop 8 = body :=
    List.drop_left' kind.tag.length_eq
  rw [instruction?, InstructionKind.find?_tag, Option.bind_eq_bind, Option.bind_some, hdrop]

/-- An instruction is understood exactly when the bytes behind its tag begin with a spelling of its
arguments; the accounts have no say in it. The event has the variant of the instruction, the given
metadata, the arguments spelled, what the tag implies, and in every account field the key at the
place of that account in the roster, which is zero where the instruction names no key. All else is
zero, but for the argument that a later version appends. -/
theorem instruction?_spelled (kind : InstructionKind) (body : Bytes) (accounts : Accounts)
    (m : Metadata) :
    ((instruction? kind.protocol (kind.tag.bytes ++ body) accounts m).isSome ↔
      ∃ v s, kind.Spells v s ∧ s <+: body) ∧
    (∀ v s, kind.Spells v s → s <+: body →
      ∃ e, instruction? kind.protocol (kind.tag.bytes ++ body) accounts m = some e ∧
        e.metadata = m ∧ e.variant = kind.variant ∧
        (∀ f, .field f ∈ kind.argued v → e.get f = v f) ∧ e.get.Has kind.implied ∧
        (∀ (i : Nat) (f : Field), kind.roster[i]? = some (some f) →
          ∃ isKey : f.type = .key, e.get f = isKey ▸ accounts.key i) ∧
        ∀ f, .field f ∉ kind.argued v → f ∉ kind.implied.map Sigma.fst → f ∉ kind.appended →
          some f ∉ kind.roster → e.get f = f.type.zero) ∧
    ∀ i, (∀ j, accounts.indices[i]? = some j → accounts.keys.length ≤ j.toNat) →
      accounts.key i = Key.zero := by
  rw [instruction?_tag]
  refine ⟨⟨fun h => ?_, ?_⟩, ?_, fun i h => Accounts.key_eq_zero h⟩
  · obtain ⟨e, he⟩ := Option.isSome_iff_exists.1 h
    obtain ⟨v, s, hs, hspells⟩ := InstructionKind.spells_of_event? he
    exact ⟨v, s, hspells, hs⟩
  · rintro ⟨v, s, hs, rest, rfl⟩
    obtain ⟨e, he, -⟩ := InstructionKind.event?_of_spells hs rest accounts m
    rw [he]
    rfl
  · rintro v s hs ⟨rest, rfl⟩
    exact InstructionKind.event?_of_spells hs rest accounts m

/-- One key, to which the second account of an instruction refers; the first refers to none. -/
def dangling : Accounts where
  keys := [⟨List.replicate 32 1, rfl⟩]
  indices := [7, 0]

/-- A purchase of seven base tokens for at most nine lamports. -/
def purchase : Valuation :=
  (Valuation.zero.set .amount (7 : UInt64)).set .maxSolCost (9 : UInt64)

/-- The arguments of `purchase`, each in eight bytes. -/
def purchaseBytes : Bytes :=
  [7, 0, 0, 0, 0, 0, 0, 0, 9, 0, 0, 0, 0, 0, 0, 0]

/-- A purchase with a byte behind its arguments and a short list of accounts: the first account
refers to no key, the second to the one key, and the mint and the others are missing. -/
theorem instruction?_spelled_buy :
    ∃ e, instruction? .pumpFun (InstructionKind.pumpFunBuy.tag.bytes ++ (purchaseBytes ++ [3]))
        dangling Metadata.empty = some e ∧
      e.variant = .pumpFunTrade ∧ e.get .amount = (7 : UInt64) ∧
      e.get .maxSolCost = (9 : UInt64) ∧ e.get .isBuy = true ∧
      e.get .feeRecipient = dangling.key 1 ∧ dangling.key 1 ≠ Key.zero ∧
      e.get .global = Key.zero ∧ e.get .mint = Key.zero ∧ e.get .solAmount = (0 : UInt64) := by
  have amountSpelled : Parameter.Spells purchase (.field .amount) [7, 0, 0, 0, 0, 0, 0, 0] := rfl
  have costSpelled : Parameter.Spells purchase (.field .maxSolCost) [9, 0, 0, 0, 0, 0, 0, 0] := rfl
  have spelled : InstructionKind.pumpFunBuy.Spells purchase purchaseBytes :=
    ⟨fun h => (nomatch h), _, _, rfl, amountSpelled, _, [], rfl, costSpelled, rfl⟩
  obtain ⟨-, understood, unknown⟩ :=
    instruction?_spelled .pumpFunBuy (purchaseBytes ++ [3]) dangling Metadata.empty
  obtain ⟨e, he, -, ht, hargued, himplied, haccounts, hzero⟩ :=
    understood purchase purchaseBytes spelled ⟨[3], rfl⟩
  have nowhere : dangling.key 0 = Key.zero := by
    refine unknown 0 fun j hj => ?_
    rw [← Option.some.inj (show some 7 = some j from hj)]
    decide
  have missing : dangling.key 2 = Key.zero := unknown 2 fun j hj => nomatch hj
  obtain ⟨_, hglobal⟩ := haccounts 0 .global rfl
  obtain ⟨_, hrecipient⟩ := haccounts 1 .feeRecipient rfl
  obtain ⟨_, hmint⟩ := haccounts 2 .mint rfl
  refine ⟨e, he, ht, hargued .amount (by decide), hargued .maxSolCost (by decide),
    himplied ⟨.isBuy, true⟩ (List.mem_singleton_self _), hrecipient, by decide,
    hglobal.trans nowhere, hmint.trans missing,
    hzero .solAmount (by decide) (by decide) (by decide) (by decide)⟩

end Payload

end DexFeed
