import AfroPay.Base64
import AfroPay.PathRouting
import Mathlib.Data.List.DropRight
import Mathlib.Data.List.GetD

/-! Assets as a transaction carries them: a code in one of two widths, filled up with zeros,
and the key of its issuer. The encoder takes every pair with the native code for the native
asset and keeps no track of where a code ends. -/
namespace AfroPay.XdrAssets
open Base64 PathRouting

/-- A raw public key. -/
abbrev Uint256 := Vector UInt8 32

inductive XdrAsset where
  | native
  | creditAlphanum4 (assetCode : Vector UInt8 4) (issuer : Uint256)
  | creditAlphanum12 (assetCode : Vector UInt8 12) (issuer : Uint256)
  deriving DecidableEq

/-- The bytes, copied to the start of an array of zeros. -/
def zeroPadded (width : Nat) (bytes : List UInt8) : Vector UInt8 width := Vector.ofFn fun i => bytes.getD i 0

/-- The encoder, over `PublicKey::from_string`. -/
def buildXdrAsset (fromString : String → Except String Uint256) (code issuer : String) : Except String XdrAsset :=
  if code = "XLM" then .ok .native
  else match fromString issuer with
    | .error error => .error error
    | .ok issuer =>
      let bytes := utf8 code.toList
      if bytes = [] ∨ 12 < bytes.length then .error "asset code must be 1-12 ASCII bytes"
      else if ¬ bytes.all (· < 128) then .error "asset code must be ASCII"
      else if bytes.length ≤ 4 then .ok (.creditAlphanum4 (zeroPadded 4 bytes) issuer)
      else .ok (.creditAlphanum12 (zeroPadded 12 bytes) issuer)

/-- A key has one text: no other one is decoded to it. -/
def Canonical (fromString : String → Except String Uint256) : Prop :=
  ∀ text text' key, fromString text = .ok key → fromString text' = .ok key → text = text'

/-- Both are the native asset, or code and issuer agree. -/
def SameAsset (a b : Asset) : Prop :=
  a = Asset.native ∧ b = Asset.native ∨ a.code = b.code ∧ a.issuer = b.issuer

/-- What two accepted assets become tells them apart, and each becomes the native one just
when its text does. -/
def Faithful (fromString : String → Except String Uint256) (a b : Asset) : Prop :=
  (buildXdrAsset fromString a.code a.issuer = buildXdrAsset fromString b.code b.issuer → SameAsset a b) ∧
    ∀ asset ∈ [a, b], buildXdrAsset fromString asset.code asset.issuer = .ok .native ↔ asset.horizonRepr = "native"

/-- The asset that the encoded one stands for: its code ends where the zeros begin. -/
def Denotes (fromString : String → Except String Uint256) : XdrAsset → Asset → Prop
  | .native, asset => asset = Asset.native
  | .creditAlphanum4 assetCode issuer, asset =>
    assetCode.toList.rdropWhile (· = 0) = utf8 asset.code.toList ∧ fromString asset.issuer = .ok issuer
  | .creditAlphanum12 assetCode issuer, asset =>
    assetCode.toList.rdropWhile (· = 0) = utf8 asset.code.toList ∧ fromString asset.issuer = .ok issuer

/-- Two codes of one width, equal up to NULs at the end. -/
def PaddedAlike (a b : String) : Prop :=
  ((utf8 a.toList).length ≤ 4 ↔ (utf8 b.toList).length ≤ 4) ∧
    ∃ n, b.toList = a.toList ++ List.replicate n '\x00' ∨ a.toList = b.toList ++ List.replicate n '\x00'

section Padding

variable {width : Nat} {a b : List UInt8}

theorem getD_zeroPadded {index : Nat} (bound : index < width) : (zeroPadded width a)[index] = a.getD index 0 := by
  rw [zeroPadded, Vector.getElem_ofFn]

theorem zeroPadded_append (count : Nat) : zeroPadded width (a ++ List.replicate count 0) = zeroPadded width a := by
  refine Vector.ext fun index bound => ?_
  rw [getD_zeroPadded, getD_zeroPadded]
  by_cases inside : index < a.length
  · rw [List.getD_append _ _ _ _ inside]
  · rw [List.getD_append_right _ _ _ _ (not_lt.mp inside), List.getD_eq_default _ _ (not_lt.mp inside)]
    rw [List.getD_eq_getElem?_getD, List.getElem?_replicate]
    split <;> rfl

theorem toList_zeroPadded (fits : a.length ≤ width) :
    (zeroPadded width a).toList = a ++ List.replicate (width - a.length) 0 := by
  refine List.ext_getElem (by simp [fits]) fun index bound _ => ?_
  rw [Vector.length_toList] at bound
  rw [Vector.getElem_toList, getD_zeroPadded bound, List.getElem_append]
  split
  · rename_i inside
    exact List.getD_eq_getElem _ _ inside
  · rename_i outside
    rw [List.getElem_replicate, List.getD_eq_default _ _ (not_lt.mp outside)]

/-- The longer of two lists with one image goes on with zeros. -/
theorem append_of_zeroPadded (fits : b.length ≤ width) (shorter : a.length ≤ b.length)
    (same : zeroPadded width a = zeroPadded width b) : b = a ++ List.replicate (b.length - a.length) 0 := by
  have padded := congrArg Vector.toList same
  rw [toList_zeroPadded (shorter.trans fits), toList_zeroPadded fits] at padded
  calc b = (b ++ List.replicate (width - b.length) 0).take b.length := List.take_left.symm
    _ = (a ++ List.replicate (width - a.length) 0).take b.length := by rw [padded]
    _ = a ++ List.replicate (b.length - a.length) 0 := by
      rw [List.take_append, List.take_of_length_le shorter, List.take_replicate, Nat.min_eq_left (by omega)]

/-- What padding forgets is how many zeros there were. -/
theorem zeroPadded_eq_iff (a_fits : a.length ≤ width) (b_fits : b.length ≤ width) :
    zeroPadded width a = zeroPadded width b ↔ ∃ n, b = a ++ List.replicate n 0 ∨ a = b ++ List.replicate n 0 := by
  constructor
  · intro same
    rcases Nat.le_total a.length b.length with shorter | longer
    · exact ⟨_, .inl (append_of_zeroPadded b_fits shorter same)⟩
    · exact ⟨_, .inr (append_of_zeroPadded a_fits longer same.symm)⟩
  · rintro ⟨n, rfl | rfl⟩
    · exact (zeroPadded_append n).symm
    · exact zeroPadded_append n

/-- Taking the zeros off again gives the bytes back unless they end in one. -/
theorem unpadded_eq_iff (fits : a.length ≤ width) :
    (zeroPadded width a).toList.rdropWhile (· = 0) = a ↔ a.getLast? ≠ some 0 := by
  have stripped (count : Nat) : (a ++ List.replicate count 0).rdropWhile (· = 0) = a.rdropWhile (· = 0) := by
    induction count with
    | zero => rw [List.replicate_zero, List.append_nil]
    | succ count ih =>
      rw [List.replicate_succ', ← List.append_assoc, List.rdropWhile_concat_pos _ _ _ (by simp)]
      exact ih
  rw [toList_zeroPadded fits, stripped, List.rdropWhile_eq_self_iff]
  cases a using List.reverseRecOn with
  | nil => simp
  | append_singleton start last => simp

/-- The same of the codes themselves. -/
theorem zeroPadded_utf8_iff {code code' : List Char} (fits : (utf8 code).length ≤ width)
    (fits' : (utf8 code').length ≤ width) : zeroPadded width (utf8 code) = zeroPadded width (utf8 code') ↔
      ∃ n, code' = code ++ List.replicate n '\x00' ∨ code = code' ++ List.replicate n '\x00' := by
  have longer (text text' : List Char) (n : Nat) :
      utf8 text' = utf8 text ++ List.replicate n 0 ↔ text' = text ++ List.replicate n '\x00' := by
    rw [← utf8_zeros, ← utf8_append]
    exact ⟨utf8_injective, congrArg utf8⟩
  rw [zeroPadded_eq_iff fits fits']
  simp only [longer]

end Padding

section Encoding

variable {fromString : String → Except String Uint256} {code issuer : String} {asset : XdrAsset}

/-- An accepted pair is native by its code, or keeps its padded code and its issuer's key. -/
theorem buildXdrAsset_cases (accepted : buildXdrAsset fromString code issuer = .ok asset) :
    code = "XLM" ∧ asset = .native ∨
      code ≠ "XLM" ∧ ∃ key, fromString issuer = .ok key ∧
        ((utf8 code.toList).length ≤ 4 ∧ asset = .creditAlphanum4 (zeroPadded 4 (utf8 code.toList)) key ∨
          4 < (utf8 code.toList).length ∧ (utf8 code.toList).length ≤ 12 ∧
            asset = .creditAlphanum12 (zeroPadded 12 (utf8 code.toList)) key) := by
  unfold buildXdrAsset at accepted
  split at accepted
  · rename_i native
    cases accepted
    exact .inl ⟨native, rfl⟩
  rename_i credit
  refine .inr ⟨credit, ?_⟩
  split at accepted
  · cases accepted
  rename_i key decoded
  refine ⟨key, decoded, ?_⟩
  simp only at accepted
  split at accepted
  · cases accepted
  rename_i lengths
  split at accepted
  · cases accepted
  split at accepted
  · rename_i short
    cases accepted
    exact .inl ⟨short, rfl⟩
  · rename_i long
    cases accepted
    exact .inr ⟨not_le.mp long, not_lt.mp fun longer => lengths (.inr longer), rfl⟩

theorem buildXdrAsset_native_iff (accepted : buildXdrAsset fromString code issuer = .ok asset) :
    asset = .native ↔ code = "XLM" := by
  rcases buildXdrAsset_cases accepted with ⟨native, rfl⟩ | ⟨credit, key, -, ⟨-, rfl⟩ | ⟨-, -, rfl⟩⟩
  · simp [native]
  · simp [credit]
  · simp [credit]

/-- An accepted asset is the one that is encoded unless the native code has an issuer or the
code ends in a zero. -/
theorem denotes_iff (accepted : buildXdrAsset fromString code issuer = .ok asset) :
    Denotes fromString asset ⟨code, issuer⟩ ↔
      (code = "XLM" → issuer = "") ∧ (utf8 code.toList).getLast? ≠ some 0 := by
  rcases buildXdrAsset_cases accepted with ⟨rfl, rfl⟩ | ⟨credit, key, decoded, ⟨short, rfl⟩ | ⟨-, fits, rfl⟩⟩
  · have ending : (utf8 "XLM".toList).getLast? ≠ some 0 := by decide +kernel
    rw [Denotes, Asset.native, Asset.mk.injEq]
    exact ⟨fun same => ⟨fun _ => same.2, ending⟩, fun bare => ⟨rfl, bare.1 rfl⟩⟩
  · simp only [Denotes, unpadded_eq_iff short, decoded, and_true, credit, false_implies, true_and]
  · simp only [Denotes, unpadded_eq_iff fits, decoded, and_true, credit, false_implies, true_and]

theorem horizonRepr_native_iff (asset : Asset) :
    asset.horizonRepr = "native" ↔ asset.code = "XLM" ∧ asset.issuer = "" := by
  unfold Asset.horizonRepr
  split
  · rename_i native
    exact ⟨fun _ => native, fun _ => rfl⟩
  · rename_i credit
    refine ⟨fun same => ?_, fun native => absurd native credit⟩
    have colon : ':' ∈ (asset.code ++ ":" ++ asset.issuer).toList := by simp
    rw [same] at colon
    exact absurd colon (by decide)

/-- Two issued assets become one just when the issuer is one and padding hides the
difference of the codes. -/
theorem credit_eq_iff {code' issuer' : String} {asset' : XdrAsset} (canonical : Canonical fromString)
    (accepted : buildXdrAsset fromString code issuer = .ok asset)
    (accepted' : buildXdrAsset fromString code' issuer' = .ok asset') (credit : code ≠ "XLM")
    (credit' : code' ≠ "XLM") :
    asset = asset' ↔ issuer = issuer' ∧ PaddedAlike code code' := by
  obtain ⟨native, -⟩ | ⟨-, key, decoded, shape⟩ := buildXdrAsset_cases accepted
  · exact absurd native credit
  obtain ⟨native, -⟩ | ⟨-, key', decoded', shape'⟩ := buildXdrAsset_cases accepted'
  · exact absurd native credit'
  have keys : key = key' ↔ issuer = issuer' := by
    constructor
    · rintro rfl
      exact canonical _ _ _ decoded decoded'
    · rintro rfl
      exact Except.ok.inj (decoded.symm.trans decoded')
  unfold PaddedAlike
  rcases shape with ⟨short, rfl⟩ | ⟨long, fits, rfl⟩ <;> rcases shape' with ⟨short', rfl⟩ | ⟨long', fits', rfl⟩
  · rw [XdrAsset.creditAlphanum4.injEq, keys, zeroPadded_utf8_iff short short']
    simp only [short, short', true_and, and_comm]
  · simp only [reduceCtorEq, short, not_le.mpr long', true_iff, false_and, and_false]
  · simp only [reduceCtorEq, not_le.mpr long, short', false_iff, not_true_eq_false, false_and, and_false]
  · rw [XdrAsset.creditAlphanum12.injEq, keys, zeroPadded_utf8_iff fits fits']
    simp only [not_le.mpr long, not_le.mpr long', true_and, and_comm]

end Encoding

/-- Two accepted pairs are encoded faithfully just when neither gives the native code an
issuer, and no two codes under one issuer differ only by NULs at the end. -/
theorem faithful_iff (fromString : String → Except String Uint256) (canonical : Canonical fromString) (a b : Asset)
    (a_accepted : ∃ asset, buildXdrAsset fromString a.code a.issuer = .ok asset)
    (b_accepted : ∃ asset, buildXdrAsset fromString b.code b.issuer = .ok asset) :
    Faithful fromString a b ↔
      (∀ asset ∈ [a, b], asset.code = "XLM" → asset.issuer = "") ∧
        (a.code ≠ "XLM" → b.code ≠ "XLM" → a.issuer = b.issuer → PaddedAlike a.code b.code → a.code = b.code) := by
  obtain ⟨xa, a_ok⟩ := a_accepted
  obtain ⟨xb, b_ok⟩ := b_accepted
  have native_agrees : (∀ asset ∈ [a, b],
      buildXdrAsset fromString asset.code asset.issuer = .ok .native ↔ asset.horizonRepr = "native") ↔
        ∀ asset ∈ [a, b], asset.code = "XLM" → asset.issuer = "" := by
    refine forall₂_congr fun asset member => ?_
    obtain ⟨x, ok⟩ : ∃ x, buildXdrAsset fromString asset.code asset.issuer = .ok x := by
      rcases List.mem_pair.mp member with rfl | rfl
      · exact ⟨xa, a_ok⟩
      · exact ⟨xb, b_ok⟩
    rw [ok, Except.ok.injEq, buildXdrAsset_native_iff ok, horizonRepr_native_iff]
    exact ⟨fun agrees native => (agrees.mp native).2, fun bare => ⟨fun native => ⟨native, bare native⟩, And.left⟩⟩
  rw [Faithful, native_agrees, and_comm, and_congr_right_iff]
  intro bare
  rw [a_ok, b_ok, Except.ok.injEq]
  constructor
  · intro told a_credit b_credit issuers alike
    rcases told ((credit_eq_iff canonical a_ok b_ok a_credit b_credit).mpr ⟨issuers, alike⟩) with ⟨native, -⟩ | same
    · exact absurd (congrArg Asset.code native) a_credit
    · exact same.1
  · rintro codes rfl
    have natives : a.code = "XLM" ↔ b.code = "XLM" :=
      (buildXdrAsset_native_iff a_ok).symm.trans (buildXdrAsset_native_iff b_ok)
    by_cases native : a.code = "XLM"
    · have a_bare := bare a (by simp) native
      have b_bare := bare b (by simp) (natives.mp native)
      exact .inr ⟨native.trans (natives.mp native).symm, a_bare.trans b_bare.symm⟩
    · have credit := mt natives.mpr native
      obtain ⟨issuers, alike⟩ := (credit_eq_iff canonical a_ok b_ok native credit).mp rfl
      exact .inr ⟨codes native credit issuers alike, issuers⟩

def sourcePublic : String := "GBZDVZMN65YLWARGZ5Y4DBWECYJBWHKEBSNZUMPKKTKOP3OWSYVD23BQ"

def targetPublic : String := "GB3IZ2LJNZ7GFE6TQHDEZAGK5QLQJ2UPLY5TMNU5BZIWJYCA3C7INQRO"

def sourceBytes : Uint256 :=
  #v[114, 58, 229, 141, 247, 112, 187, 2, 38, 207, 113, 193, 134, 196, 22, 18, 27, 29, 68, 12, 155, 154, 49, 234, 84,
    212, 231, 237, 214, 150, 42, 61]

def targetBytes : Uint256 :=
  #v[118, 140, 233, 105, 110, 126, 98, 147, 211, 129, 198, 76, 128, 202, 236, 23, 4, 234, 143, 94, 59, 54, 54, 157, 14,
    81, 100, 224, 64, 216, 190, 134]

/-- `PublicKey::from_string` on the texts of two accounts. -/
def knownKeys (text : String) : Except String Uint256 :=
  if text = sourcePublic then .ok sourceBytes
  else if text = targetPublic then .ok targetBytes
  else .error "the strkey is invalid"

theorem knownKeys_canonical : Canonical knownKeys := by
  have differ : sourceBytes ≠ targetBytes := by decide +kernel
  have decoded {text : String} {key : Uint256} (ok : knownKeys text = .ok key) :
      text = sourcePublic ∧ sourceBytes = key ∨ text = targetPublic ∧ targetBytes = key := by
    unfold knownKeys at ok
    split at ok
    · rename_i source
      exact .inl ⟨source, Except.ok.inj ok⟩
    split at ok
    · rename_i target
      exact .inr ⟨target, Except.ok.inj ok⟩
    · cases ok
  intro text text' key ok ok'
  rcases decoded ok with ⟨rfl, rfl⟩ | ⟨rfl, rfl⟩ <;> rcases decoded ok' with ⟨rfl, same⟩ | ⟨rfl, same⟩
  · rfl
  · exact absurd same.symm differ
  · exact absurd same differ
  · rfl

/-- A stable coin and a native asset. -/
theorem faithful_iff_dollars :
    let dollars : Asset := ⟨"USDC", sourcePublic⟩
    Faithful knownKeys dollars Asset.native ↔
      (∀ asset ∈ [dollars, Asset.native], asset.code = "XLM" → asset.issuer = "") ∧
        (dollars.code ≠ "XLM" → Asset.native.code ≠ "XLM" → dollars.issuer = Asset.native.issuer →
          PaddedAlike dollars.code Asset.native.code → dollars.code = Asset.native.code) :=
  faithful_iff knownKeys knownKeys_canonical _ _ ⟨_, rfl⟩ ⟨_, rfl⟩

/-- An issued asset of the native code is encoded as the native asset, which its text is not. -/
theorem issued_lumens_native :
    let lumens : Asset := ⟨"XLM", sourcePublic⟩
    buildXdrAsset knownKeys lumens.code lumens.issuer = .ok .native ∧ ¬ Faithful knownKeys lumens lumens := by
  refine ⟨rfl, ?_⟩
  rintro ⟨-, agrees⟩
  exact absurd ((agrees _ List.mem_cons_self).mp rfl) (by decide +kernel)

/-- A NUL at the end of a code is taken for padding. -/
example : buildXdrAsset knownKeys "USD" sourcePublic = buildXdrAsset knownKeys "USD\x00" sourcePublic := by
  decide +kernel

end AfroPay.XdrAssets
