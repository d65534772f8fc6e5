import RmqttThings.Binary64.Unpacked

namespace Binary64

open Float.Model (UnpackedFloat Format)
open Float.Model.UnpackedFloat

section Components

theorem unpackSign_packComponents {spec : Format} {sign : Sign}
    {exponent : BitVec spec.exponentBits} {mantissa : BitVec spec.mantissaBitsWithoutImplicit} :
    unpackSign (packComponents spec sign exponent mantissa) = sign.toBitVec := by
  ext i hi
  obtain rfl : i = 0 := by omega
  simp [unpackSign, packComponents, BitVec.getLsbD_append, BitVec.getElem_append]

theorem ofBitVec_toBitVec (s : Sign) : Sign.ofBitVec s.toBitVec = s := by
  cases s <;> rfl

theorem toNat_implicit (mantissa : BitVec 52) :
    (1#1 ++ mantissa).toNat = 2 ^ 52 + mantissa.toNat := by
  have hlt := mantissa.isLt
  rw [BitVec.toNat_append, ← Nat.shiftLeft_add_eq_or_of_lt hlt]
  rfl

variable {s : Sign} {mantissa : BitVec 52}

theorem unpack_normal {exponent : BitVec 11} (hzero : exponent ≠ 0#11) (hones : exponent ≠ -1#11)
    (hm : 0 < 2 ^ 52 + mantissa.toNat) :
    unpack Format.binary64 (packComponents Format.binary64 s exponent mantissa) =
      .finite s (2 ^ 52 + mantissa.toNat) ((exponent.toNat : Int) - 1075) hm := by
  simp only [unpack, unpackExponent_packComponents, unpackMantissa_packComponents,
    unpackSign_packComponents, ofBitVec_toBitVec]
  rw [if_neg hones, if_neg hzero, finite.injEq]
  exact ⟨rfl, toNat_implicit mantissa, rfl⟩

theorem unpack_subnormal (hm : 0 < mantissa.toNat) :
    unpack Format.binary64 (packComponents Format.binary64 s 0#11 mantissa) =
      .finite s mantissa.toNat (-1074) hm := by
  have hne : mantissa ≠ 0#52 := by
    rintro rfl
    simp at hm
  simp only [unpack, unpackExponent_packComponents, unpackMantissa_packComponents,
    unpackSign_packComponents, ofBitVec_toBitVec]
  rw [if_neg (by decide), if_pos trivial, dif_neg hne]
  rfl

end Components

section Pack

-- What is packed without a loss.
def Packable : UnpackedFloat → Prop
  | .finite _ m e _ => Canonical m e ∧ e ≤ 971
  | _ => True

theorem packable_unpack (b : BitVec 64) : Packable (unpack Format.binary64 b) := by
  have hmantissa : (@unpackMantissa Format.binary64 b).toNat < 2 ^ 52 := BitVec.isLt _
  have hexponent : (@unpackExponent Format.binary64 b).toNat < 2 ^ 11 := BitVec.isLt _
  have himplicit := toNat_implicit (@unpackMantissa Format.binary64 b)
  unfold unpack
  simp only
  split_ifs with hones hinfinite hzero hm
  · trivial
  · trivial
  · trivial
  · have hexp : (@unpackExponent Format.binary64 b).toNat = 0 := by
      rw [hzero]
      rfl
    rw [hexp]
    exact ⟨⟨hmantissa.trans (by decide), by decide, .inr rfl⟩, by decide⟩
  · have hpos : 0 < (@unpackExponent Format.binary64 b).toNat := BitVec.toNat_pos_of_ne_zero hzero
    have hlast : (@unpackExponent Format.binary64 b).toNat ≠ 2047 :=
      fun h => hones (BitVec.eq_of_toNat_eq h)
    have hbias : (Format.binary64.exponentBias : Int) +
        (Format.binary64.mantissaBitsWithoutImplicit : Int) = 1075 := rfl
    rw [hbias]
    have hlt : (1#1 ++ @unpackMantissa Format.binary64 b).toNat < 2 ^ 53 := by
      rw [himplicit]
      omega
    have hnormal : 2 ^ 52 ≤ (1#1 ++ @unpackMantissa Format.binary64 b).toNat := by
      rw [himplicit]
      omega
    exact ⟨⟨hlt, by omega, .inl hnormal⟩, by omega⟩

variable {s : Sign} {m : Nat} {e : Int} {hm : 0 < m}

theorem unpack_pack_finite (h : Canonical m e) (he : e ≤ 971) :
    unpack Format.binary64 (pack Format.binary64 (.finite s m e hm)) = .finite s m e hm := by
  have hle := h.le
  have hlt := h.lt
  have hfits : ¬2 ^ 11 ≤ (e + 1023 + 52).toNat + 1 := by omega
  by_cases hnormal : 2 ^ 52 ≤ m
  · have hlog : m.log2 + 1 = 53 := by
      rw [(Nat.log2_eq_iff hm.ne').mpr ⟨hnormal, hlt⟩]
    have hpack : pack Format.binary64 (.finite s m e hm) = packComponents Format.binary64 s
        (BitVec.ofNat 11 (e + 1023 + 52).toNat) (BitVec.ofNat 52 m) :=
          (if_neg hfits).trans (if_pos hlog)
    have hmod : (BitVec.ofNat 52 m).toNat = m - 2 ^ 52 := by
      rw [BitVec.toNat_ofNat]
      omega
    have hexp : (BitVec.ofNat 11 (e + 1023 + 52).toNat).toNat = (e + 1075).toNat := by
      rw [BitVec.toNat_ofNat]
      omega
    rw [hpack, unpack_normal ?_ ?_ (by omega), finite.injEq, hmod, hexp]
    · exact ⟨rfl, by omega, by omega⟩
    · intro hzero
      rw [hzero] at hexp
      simp at hexp
      omega
    · intro hones
      rw [hones] at hexp
      simp at hexp
      omega
  · have hlog : ¬m.log2 + 1 = 53 := by
      have := (Nat.log2_lt hm.ne').mpr (Nat.lt_of_not_le hnormal)
      omega
    have hpack : pack Format.binary64 (.finite s m e hm) = packComponents Format.binary64 s 0#11
        (BitVec.ofNat 52 m) :=
      (if_neg hfits).trans (if_neg hlog)
    have hmod : (BitVec.ofNat 52 m).toNat = m := by
      rw [BitVec.toNat_ofNat]
      omega
    rw [hpack, unpack_subnormal (hmod.symm ▸ hm), finite.injEq, hmod]
    exact ⟨rfl, rfl, (h.normal.resolve_left hnormal).symm⟩

theorem unpack_pack {a : UnpackedFloat} (h : Packable a) :
    unpack Format.binary64 (pack Format.binary64 a) = a := by
  cases a with
  | infinity s => cases s <;> rfl
  | notANumber => rfl
  | zero s => cases s <;> rfl
  | finite s m e hm => exact unpack_pack_finite h.1 h.2

theorem unpack_pack_overflow (he : 971 < e) :
    unpack Format.binary64 (pack Format.binary64 (.finite s m e hm)) = .infinity s := by
  have hoverflow : 2 ^ 11 ≤ (e + 1023 + 52).toNat + 1 := by omega
  have hpack : pack Format.binary64 (.finite s m e hm) = packedInfinity Format.binary64 s :=
    if_pos hoverflow
  rw [hpack]
  cases s <;> rfl

end Pack

end Binary64
