import NoirVisor.Crc
import NoirVisor.Platform

/-!
# The checksum of a page

The pages that code integrity scans are compared by their CRC32C (`xpf_core/ci.c`), which is taken
with a table of bytes or by an instruction (`xpf_core/msvc/crc32.asm`). The checksum starts from all
ones with the table and from zero with the instruction, so that the two differ on every page, by the
same word. Either one changes with every byte of the page.
-/

namespace NoirVisor

/-- `crc32c_table`. -/
def crc32cTable : List (BitVec 32) :=
  [
    0x00000000, 0xf26b8303, 0xe13b70f7, 0x1350f3f4, 0xc79a971f, 0x35f1141c, 0x26a1e7e8, 0xd4ca64eb,
    0x8ad958cf, 0x78b2dbcc, 0x6be22838, 0x9989ab3b, 0x4d43cfd0, 0xbf284cd3, 0xac78bf27, 0x5e133c24,
    0x105ec76f, 0xe235446c, 0xf165b798, 0x030e349b, 0xd7c45070, 0x25afd373, 0x36ff2087, 0xc494a384,
    0x9a879fa0, 0x68ec1ca3, 0x7bbcef57, 0x89d76c54, 0x5d1d08bf, 0xaf768bbc, 0xbc267848, 0x4e4dfb4b,
    0x20bd8ede, 0xd2d60ddd, 0xc186fe29, 0x33ed7d2a, 0xe72719c1, 0x154c9ac2, 0x061c6936, 0xf477ea35,
    0xaa64d611, 0x580f5512, 0x4b5fa6e6, 0xb93425e5, 0x6dfe410e, 0x9f95c20d, 0x8cc531f9, 0x7eaeb2fa,
    0x30e349b1, 0xc288cab2, 0xd1d83946, 0x23b3ba45, 0xf779deae, 0x05125dad, 0x1642ae59, 0xe4292d5a,
    0xba3a117e, 0x4851927d, 0x5b016189, 0xa96ae28a, 0x7da08661, 0x8fcb0562, 0x9c9bf696, 0x6ef07595,
    0x417b1dbc, 0xb3109ebf, 0xa0406d4b, 0x522bee48, 0x86e18aa3, 0x748a09a0, 0x67dafa54, 0x95b17957,
    0xcba24573, 0x39c9c670, 0x2a993584, 0xd8f2b687, 0x0c38d26c, 0xfe53516f, 0xed03a29b, 0x1f682198,
    0x5125dad3, 0xa34e59d0, 0xb01eaa24, 0x42752927, 0x96bf4dcc, 0x64d4cecf, 0x77843d3b, 0x85efbe38,
    0xdbfc821c, 0x2997011f, 0x3ac7f2eb, 0xc8ac71e8, 0x1c661503, 0xee0d9600, 0xfd5d65f4, 0x0f36e6f7,
    0x61c69362, 0x93ad1061, 0x80fde395, 0x72966096, 0xa65c047d, 0x5437877e, 0x4767748a, 0xb50cf789,
    0xeb1fcbad, 0x197448ae, 0x0a24bb5a, 0xf84f3859, 0x2c855cb2, 0xdeeedfb1, 0xcdbe2c45, 0x3fd5af46,
    0x7198540d, 0x83f3d70e, 0x90a324fa, 0x62c8a7f9, 0xb602c312, 0x44694011, 0x5739b3e5, 0xa55230e6,
    0xfb410cc2, 0x092a8fc1, 0x1a7a7c35, 0xe811ff36, 0x3cdb9bdd, 0xceb018de, 0xdde0eb2a, 0x2f8b6829,
    0x82f63b78, 0x709db87b, 0x63cd4b8f, 0x91a6c88c, 0x456cac67, 0xb7072f64, 0xa457dc90, 0x563c5f93,
    0x082f63b7, 0xfa44e0b4, 0xe9141340, 0x1b7f9043, 0xcfb5f4a8, 0x3dde77ab, 0x2e8e845f, 0xdce5075c,
    0x92a8fc17, 0x60c37f14, 0x73938ce0, 0x81f80fe3, 0x55326b08, 0xa759e80b, 0xb4091bff, 0x466298fc,
    0x1871a4d8, 0xea1a27db, 0xf94ad42f, 0x0b21572c, 0xdfeb33c7, 0x2d80b0c4, 0x3ed04330, 0xccbbc033,
    0xa24bb5a6, 0x502036a5, 0x4370c551, 0xb11b4652, 0x65d122b9, 0x97baa1ba, 0x84ea524e, 0x7681d14d,
    0x2892ed69, 0xdaf96e6a, 0xc9a99d9e, 0x3bc21e9d, 0xef087a76, 0x1d63f975, 0x0e330a81, 0xfc588982,
    0xb21572c9, 0x407ef1ca, 0x532e023e, 0xa145813d, 0x758fe5d6, 0x87e466d5, 0x94b49521, 0x66df1622,
    0x38cc2a06, 0xcaa7a905, 0xd9f75af1, 0x2b9cd9f2, 0xff56bd19, 0x0d3d3e1a, 0x1e6dcdee, 0xec064eed,
    0xc38d26c4, 0x31e6a5c7, 0x22b65633, 0xd0ddd530, 0x0417b1db, 0xf67c32d8, 0xe52cc12c, 0x1747422f,
    0x49547e0b, 0xbb3ffd08, 0xa86f0efc, 0x5a048dff, 0x8ecee914, 0x7ca56a17, 0x6ff599e3, 0x9d9e1ae0,
    0xd3d3e1ab, 0x21b862a8, 0x32e8915c, 0xc083125f, 0x144976b4, 0xe622f5b7, 0xf5720643, 0x07198540,
    0x590ab964, 0xab613a67, 0xb831c993, 0x4a5a4a90, 0x9e902e7b, 0x6cfbad78, 0x7fab5e8c, 0x8dc0dd8f,
    0xe330a81a, 0x115b2b19, 0x020bd8ed, 0xf0605bee, 0x24aa3f05, 0xd6c1bc06, 0xc5914ff2, 0x37faccf1,
    0x69e9f0d5, 0x9b8273d6, 0x88d28022, 0x7ab90321, 0xae7367ca, 0x5c18e4c9, 0x4f48173d, 0xbd23943e,
    0xf36e6f75, 0x0105ec76, 0x12551f82, 0xe03e9c81, 0x34f4f86a, 0xc69f7b69, 0xd5cf889d, 0x27a40b9e,
    0x79b737ba, 0x8bdcb4b9, 0x988c474d, 0x6ae7c44e, 0xbe2da0a5, 0x4c4623a6, 0x5f16d052, 0xad7d5351]

def noirCrc32PageStdStep (crc : BitVec 32) (b : BitVec 8) : BitVec 32 :=
  let crcIndex : BitVec 8 := (crc ^^^ (b.setWidth 32 &&& 0xff)).setWidth 8
  crc32cTable.getD crcIndex.toNat 0 ^^^ crc >>> 8

def noirCrc32PageStdLoop (page : Words.Memory) : Nat → BitVec 32
  | 0 => 0xffffffff
  | i + 1 => noirCrc32PageStdStep (noirCrc32PageStdLoop page i) (page i)

def noirCrc32PageStd (page : Words.Memory) : BitVec 32 := noirCrc32PageStdLoop page page4kbSize

/-- The instruction: the source and the remainder so far, with their bits reflected, are divided by
the polynomial. The upper half of the destination is cleared. -/
def crc32 (dest src : BitVec 64) : BitVec 64 :=
  let temp3 : BitVec 96 := src.reverse.setWidth 96 <<< 32
  let temp4 : BitVec 96 := (dest.setWidth 32).reverse.setWidth 96 <<< 64
  let temp6 : BitVec 32 := (Crc.reduce 0x11EDC6F41 32 64 (temp3 ^^^ temp4)).setWidth 32
  temp6.reverse.setWidth 64

structure CrcRegisters where
  rsi : Nat := 0
  r8 : BitVec 64 := 0

/-- `lodsq`, and the instruction. -/
def loopCrcBody (page : Words.Memory) (regs : CrcRegisters) : CrcRegisters where
  rsi := regs.rsi + 8
  r8 := crc32 regs.r8 (Words.load page regs.rsi 8)

/-- The body runs before `loop` counts down. -/
def loopCrc (page : Words.Memory) : Nat → CrcRegisters → CrcRegisters
  | 0, regs => regs
  | ecx + 1, regs => loopCrc page ecx (loopCrcBody page regs)

def noirCrc32PageSse (page : Words.Memory) : BitVec 32 := (loopCrc page 512 {}).r8.setWidth 32

/-- What `noir_crc32_page` may point at. -/
inductive CrcRoutine
  | std
  | sse
deriving DecidableEq

def CrcRoutine.noirCrc32Page : CrcRoutine → Words.Memory → BitVec 32
  | .std => noirCrc32PageStd
  | .sse => noirCrc32PageSse

def castagnoli : BitVec 32 := 0x82F63B78

theorem castagnoli_leading : castagnoli.getLsbD (32 - 1) = true := rfl

theorem crc32cTable_eq (index : BitVec 8) :
    crc32cTable.getD index.toNat 0 = Crc.shift castagnoli 8 (index.setWidth 32) := by
  have hall : ∀ i : Fin 256,
      crc32cTable.getD i 0 = Crc.shift castagnoli 8 ((BitVec.ofFin i : BitVec 8).setWidth 32) := by
    decide +kernel
  exact hall index.toFin

theorem noirCrc32PageStdStep_eq (crc : BitVec 32) (b : BitVec 8) :
    noirCrc32PageStdStep crc b = Crc.byte castagnoli crc b := by
  have hmask : (b.setWidth 32 &&& 0xff : BitVec 32) = b.setWidth 32 := by
    apply BitVec.eq_of_toNat_eq
    rw [BitVec.toNat_and, BitVec.toNat_setWidth_of_le (by omega)]
    exact Nat.and_two_pow_sub_one_of_lt_two_pow b.isLt
  rw [noirCrc32PageStdStep, hmask, crc32cTable_eq, ← Crc.byte_eq]

theorem noirCrc32PageStdLoop_eq (page : Words.Memory) (n : Nat) :
    noirCrc32PageStdLoop page n = Crc.feed castagnoli 0xffffffff page n := by
  induction n with
  | zero => rfl
  | succ n ih => rw [noirCrc32PageStdLoop, ih, noirCrc32PageStdStep_eq, Crc.feed]

theorem castagnoli_reflected (i : Nat) : (castagnoli.setWidth 96).getLsbD i =
    (decide (i < 32) && (0x11EDC6F41 : BitVec 96).getLsbD (32 - 1 - i)) := by
  by_cases hi : i < 32
  · have hall : ∀ i < 32, (castagnoli.setWidth 96).getLsbD i =
        (0x11EDC6F41 : BitVec 96).getLsbD (32 - 1 - i) := by decide
    rw [hall i hi, decide_eq_true hi, Bool.true_and]
  · rw [BitVec.getLsbD_setWidth, BitVec.getLsbD_of_ge castagnoli i (by omega), Bool.and_false,
      decide_eq_false hi, Bool.false_and]

/-- The instruction feeds the eight bytes of its source, the lowest one first. -/
theorem crc32_load (crc : BitVec 32) (page : Words.Memory) (offset : Nat) :
    crc32 (crc.setWidth 64) (Words.load page offset 8) =
      (Crc.feed castagnoli crc (fun i => page (offset + i)) 8).setWidth 64 := by
  have hdest : (crc.setWidth 64).setWidth 32 = crc := by
    rw [BitVec.setWidth_setWidth_of_le _ (by omega), BitVec.setWidth_eq]
  have hdiv := Crc.reverse_reduce castagnoli_reflected (by omega : 64 + 32 ≤ 96)
    (x := (Words.load page offset 8).reverse.setWidth 96 <<< 32 ^^^
      crc.reverse.setWidth 96 <<< 64)
  have hfeed : Crc.shift (castagnoli.setWidth 96) 64
      (crc.setWidth 96 ^^^ (Words.load page offset 8).setWidth 96) =
        (Crc.feed castagnoli crc (fun i => page (offset + i)) 8).setWidth 96 :=
    Crc.shift_load (by omega) (by omega) (by omega) offset (Nat.le_refl 8)
  rw [Crc.reverse_xor, Crc.reverse_setWidth_shiftLeft (v := 96) _ rfl,
    Crc.reverse_setWidth_shiftLeft (v := 96) _ rfl,
    BitVec.xor_comm ((Words.load page offset 8).setWidth 96), hfeed] at hdiv
  have hback (check : BitVec 32) : (check.setWidth 96).setWidth 32 = check := by
    rw [BitVec.setWidth_setWidth_of_le _ (by omega), BitVec.setWidth_eq]
  simp only [crc32, hdest]
  rw [Crc.reverse_setWidth _ (by omega), hdiv, hback]

theorem loopCrc_eq (page : Words.Memory) (n : Nat) (regs : CrcRegisters) (crc : BitVec 32)
    (hcrc : regs.r8 = crc.setWidth 64) :
    (loopCrc page n regs).r8 =
      (Crc.feed castagnoli crc (fun i => page (regs.rsi + i)) (8 * n)).setWidth 64 := by
  induction n generalizing regs crc with
  | zero => exact hcrc
  | succ n ih =>
      have hbody : (loopCrcBody page regs).r8 =
          (Crc.feed castagnoli crc (fun i => page (regs.rsi + i)) 8).setWidth 64 := by
        rw [loopCrcBody, hcrc, crc32_load]
      have hsteps : 8 * (n + 1) = 8 + 8 * n := by omega
      rw [loopCrc, ih _ _ hbody, hsteps, Crc.feed_add]
      simp only [loopCrcBody, Nat.add_assoc]

theorem noirCrc32PageStd_eq (page : Words.Memory) :
    noirCrc32PageStd page = Crc.feed castagnoli 0xffffffff page page4kbSize :=
  noirCrc32PageStdLoop_eq page page4kbSize

theorem noirCrc32PageSse_eq (page : Words.Memory) :
    noirCrc32PageSse page = Crc.feed castagnoli 0 page page4kbSize := by
  rw [noirCrc32PageSse, loopCrc_eq page 512 {} 0 rfl, BitVec.setWidth_setWidth_of_le _ (by omega),
    BitVec.setWidth_eq]
  exact Crc.feed_congr fun i _ => congrArg page (Nat.zero_add i)

namespace CrcRoutine

/-- The value that the checksum starts from. -/
def initial : CrcRoutine → BitVec 32
  | std => 0xffffffff
  | sse => 0

variable {routine : CrcRoutine} {page : Words.Memory}

theorem noirCrc32Page_eq :
    routine.noirCrc32Page page = Crc.feed castagnoli routine.initial page page4kbSize := by
  cases routine with
  | std => exact noirCrc32PageStd_eq page
  | sse => exact noirCrc32PageSse_eq page

theorem noirCrc32Page_update_ne {i : Nat} (hi : i < page4kbSize) {b : BitVec 8} (hb : b ≠ page i) :
    routine.noirCrc32Page (Function.update page i b) ≠ routine.noirCrc32Page page := by
  rw [noirCrc32Page_eq, noirCrc32Page_eq]
  exact Crc.feed_update_ne (by omega) castagnoli_leading hi hb

end CrcRoutine

/-- The worker scans a page that was registered with `crc`. -/
def ciEnforcementReports (crc scanned : BitVec 32) : Bool := scanned != crc

/-- The two routines are as good as each other on the page, and either sees a byte that changes. -/
structure CrcInterchangeable (page : Words.Memory) : Prop where
  agrees : noirCrc32PageSse page = noirCrc32PageStd page
  unreported : ∀ registered scanned : CrcRoutine,
    ciEnforcementReports (registered.noirCrc32Page page) (scanned.noirCrc32Page page) = false
  changes : ∀ (routine : CrcRoutine) (i : Nat) (b : BitVec 8), i < page4kbSize → b ≠ page i →
    routine.noirCrc32Page (Function.update page i b) ≠ routine.noirCrc32Page page

/-- What the missing start of the one routine comes to after a page. -/
def crcSkew : BitVec 32 := Crc.shift castagnoli (8 * page4kbSize) 0xffffffff

theorem crcSkew_ne_zero : crcSkew ≠ 0 := by
  intro hzero
  exact absurd (Crc.shift_injective castagnoli_leading _ (hzero.trans Crc.shift_zero.symm)) (by decide)

theorem noirCrc32PageStd_eq_xor (page : Words.Memory) :
    noirCrc32PageStd page = noirCrc32PageSse page ^^^ crcSkew := by
  rw [noirCrc32PageStd_eq, noirCrc32PageSse_eq, crcSkew, ← Crc.feed_xor]
  rfl

theorem noirCrc32PageSse_ne_std (page : Words.Memory) : noirCrc32PageSse page ≠ noirCrc32PageStd page := by
  intro hsame
  have hxor := (noirCrc32PageStd_eq_xor page).symm.trans hsame.symm
  exact crcSkew_ne_zero ((BitVec.xor_right_inj _).mp (hxor.trans (BitVec.xor_zero).symm))

/-- The routines differ by the same word on every page, so no page has the same checksum with both.
Either one still sees a byte that changes. -/
theorem not_crcInterchangeable (page : Words.Memory) : ¬CrcInterchangeable page ∧
    crcSkew ≠ 0 ∧ noirCrc32PageStd page = noirCrc32PageSse page ^^^ crcSkew ∧
    ∀ (routine : CrcRoutine) (i : Nat) (b : BitVec 8), i < page4kbSize → b ≠ page i →
      routine.noirCrc32Page (Function.update page i b) ≠ routine.noirCrc32Page page := by
  refine ⟨fun hsame => noirCrc32PageSse_ne_std page hsame.agrees, crcSkew_ne_zero,
    noirCrc32PageStd_eq_xor page, fun routine i b hi hb => ?_⟩
  exact CrcRoutine.noirCrc32Page_update_ne hi hb

theorem not_forall_crcInterchangeable : ¬∀ page : Words.Memory, CrcInterchangeable page :=
  fun hall => noirCrc32PageSse_ne_std _ (hall fun _ => 0).agrees

end NoirVisor
