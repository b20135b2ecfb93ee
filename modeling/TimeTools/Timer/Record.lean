import TimeTools.Foundation.ByteOrder
import TimeTools.Timespec

/-!
# The record between `tcp_client` and `tcp_server`

`print_msg` fills a 50-byte buffer with `int32_to_byte` and `int64_to_byte`, and
`process_conn_server` takes it apart with `bytes_to_int32` and `bytes_to_int64`.
The four routines mask and shift one byte at a time.  They are shown to be the
little-endian bytes of a word and back (`int32ToByte_eq`, `bytesToInt32_eq`, and
the same for 64 bits), except that `bytes_to_int64` returns an `int`.

Pointers into the buffer are offsets: a store writes at an offset, and a read
starts from the rest of the buffer.
-/

namespace TimeTools.Timer

open FixedWidth ByteOrder

def bufferSize : Nat := 50

def int32ToByte (i : UInt32) : List UInt8 :=
  [((0xff : UInt32) &&& i).toUInt8,
    (((0xff00 : UInt32) &&& i) >>> 8).toUInt8,
    (((0xff0000 : UInt32) &&& i) >>> 16).toUInt8,
    (((0xff000000 : UInt32) &&& i) >>> 24).toUInt8]

/-- `int64_to_byte`.  Every masked value but the last is a nonnegative `long long`
and the last an `unsigned long`, so the shifts bring in zeros. -/
def int64ToByte (i : Int64) : List UInt8 :=
  let i := i.toUInt64
  [((0xff : UInt64) &&& i).toUInt8,
    (((0xff00 : UInt64) &&& i) >>> 8).toUInt8,
    (((0xff0000 : UInt64) &&& i) >>> 16).toUInt8,
    (((0xff000000 : UInt64) &&& i) >>> 24).toUInt8,
    (((0xff00000000 : UInt64) &&& i) >>> 32).toUInt8,
    (((0xff0000000000 : UInt64) &&& i) >>> 40).toUInt8,
    (((0xff000000000000 : UInt64) &&& i) >>> 48).toUInt8,
    (((0xff00000000000000 : UInt64) &&& i) >>> 56).toUInt8]

def storeAt (buf : List UInt8) (off : Nat) (bytes : List UInt8) : List UInt8 :=
  buf.take off ++ bytes ++ buf.drop (off + bytes.length)

def fillRecord (hour min sec : Int32) (time : Timespec) : List UInt8 :=
  let buf := List.replicate bufferSize 0
  let buf := storeAt buf 12 (int64ToByte time.tvSec)
  let buf := storeAt buf 20 (int32ToByte time.tvNsec.toUInt64.toUInt32)
  let buf := storeAt buf 0 (int32ToByte hour.toUInt32)
  let buf := storeAt buf 4 (int32ToByte min.toUInt32)
  let buf := storeAt buf 8 (int32ToByte sec.toUInt32)
  storeAt buf 24 [0]

def byteAt (bytes : List UInt8) (i : Nat) : UInt8 := bytes.getD i 0

/-- `bytes_to_int32`.  The ors are taken on the bits of the `int`. -/
def bytesToInt32 (bytes : List UInt8) : Int32 :=
  let num := (byteAt bytes 0).toUInt32 &&& 0xff
  let num := num ||| ((byteAt bytes 1).toUInt32 <<< 8 &&& (0xff00 : UInt32))
  let num := num ||| ((byteAt bytes 2).toUInt32 <<< 16 &&& (0xff0000 : UInt32))
  let num := num ||| ((byteAt bytes 3).toUInt32 <<< 24 &&& (0xff000000 : UInt32))
  num.toInt32

def longFromBytes (bytes : List UInt8) : Int64 :=
  let num := (byteAt bytes 0).toUInt64 &&& 0xff
  let num := num ||| ((byteAt bytes 1).toUInt64 <<< 8 &&& (0xff00 : UInt64))
  let num := num ||| ((byteAt bytes 2).toUInt64 <<< 16 &&& (0xff0000 : UInt64))
  let num := num ||| ((byteAt bytes 3).toUInt64 <<< 24 &&& (0xff000000 : UInt64))
  let num := num ||| ((byteAt bytes 4).toUInt64 <<< 32 &&& (0xff00000000 : UInt64))
  let num := num ||| ((byteAt bytes 5).toUInt64 <<< 40 &&& (0xff0000000000 : UInt64))
  let num := num ||| ((byteAt bytes 6).toUInt64 <<< 48 &&& (0xff000000000000 : UInt64))
  let num := num ||| ((byteAt bytes 7).toUInt64 <<< 56 &&& (0xff00000000000000 : UInt64))
  num.toInt64

/-- `bytes_to_int64`, which is declared to return `int`. -/
def bytesToInt64 (bytes : List UInt8) : Int32 := (longFromBytes bytes).toInt32

structure Received where
  hour : Int32
  min : Int32
  sec : Int32
  tsSec : Int64
  tsNsec : UInt32
  deriving DecidableEq, Repr

def decodeRecord (buffer : List UInt8) : Received :=
  { hour := bytesToInt32 buffer
    min := bytesToInt32 (buffer.drop 4)
    sec := bytesToInt32 (buffer.drop 8)
    tsSec := (bytesToInt64 (buffer.drop 12)).toInt64
    tsNsec := (bytesToInt32 (buffer.drop 20)).toUInt32 }

/-! ## The byte routines as little-endian strings -/

theorem byte_of_mask32 {x mask shift : UInt32} (k : Nat) (hmask : mask.toNat = 255 <<< (8 * k))
    (hshift : shift.toNat % 32 = 8 * k) :
    ((mask &&& x) >>> shift).toUInt8 = UInt8.ofNat (x.toNat / 256 ^ k) := by
  apply UInt8.toNat_inj.mp
  rw [UInt32.toNat_toUInt8, UInt32.toNat_shiftRight, UInt32.toNat_and, hmask, hshift, masked_byte,
    UInt8.toNat_ofNat']
  omega

theorem byte_of_mask64 {x mask shift : UInt64} (k : Nat) (hmask : mask.toNat = 255 <<< (8 * k))
    (hshift : shift.toNat % 64 = 8 * k) :
    ((mask &&& x) >>> shift).toUInt8 = UInt8.ofNat (x.toNat / 256 ^ k) := by
  apply UInt8.toNat_inj.mp
  rw [UInt64.toNat_toUInt8, UInt64.toNat_shiftRight, UInt64.toNat_and, hmask, hshift, masked_byte,
    UInt8.toNat_ofNat']
  omega

theorem int32ToByte_eq (i : UInt32) : int32ToByte i = leBytes 4 i.toNat := by
  have h0 : ((0xff : UInt32) &&& i).toUInt8 = UInt8.ofNat i.toNat := by
    apply UInt8.toNat_inj.mp
    rw [UInt32.toNat_toUInt8, UInt32.toNat_and, Nat.and_comm, UInt8.toNat_ofNat']
    exact (congrArg (· % 256) (and_byte _)).trans (Nat.mod_mod _ _)
  rw [int32ToByte, h0, byte_of_mask32 1 rfl rfl, byte_of_mask32 2 rfl rfl,
    byte_of_mask32 3 rfl rfl]
  simp only [leBytes, Nat.div_div_eq_div_mul]
  norm_num

theorem int64ToByte_eq (i : Int64) : int64ToByte i = leBytes 8 i.toUInt64.toNat := by
  have h0 : ((0xff : UInt64) &&& i.toUInt64).toUInt8 = UInt8.ofNat i.toUInt64.toNat := by
    apply UInt8.toNat_inj.mp
    rw [UInt64.toNat_toUInt8, UInt64.toNat_and, Nat.and_comm, UInt8.toNat_ofNat']
    exact (congrArg (· % 256) (and_byte _)).trans (Nat.mod_mod _ _)
  rw [int64ToByte, h0, byte_of_mask64 1 rfl rfl, byte_of_mask64 2 rfl rfl,
    byte_of_mask64 3 rfl rfl, byte_of_mask64 4 rfl rfl, byte_of_mask64 5 rfl rfl,
    byte_of_mask64 6 rfl rfl, byte_of_mask64 7 rfl rfl]
  simp only [leBytes, Nat.div_div_eq_div_mul]
  norm_num

theorem mask_of_byte32 {b : UInt8} {mask shift : UInt32} (k : Nat) (hk : k < 4)
    (hmask : mask.toNat = 255 <<< (8 * k)) (hshift : shift.toNat % 32 = 8 * k) :
    (b.toUInt32 <<< shift &&& mask).toNat = b.toNat <<< (8 * k) := by
  rw [UInt32.toNat_and, UInt32.toNat_shiftLeft, UInt8.toNat_toUInt32, hmask, hshift,
    Nat.mod_eq_of_lt (shifted_byte_lt b hk), shifted_byte_and]

theorem mask_of_byte64 {b : UInt8} {mask shift : UInt64} (k : Nat) (hk : k < 8)
    (hmask : mask.toNat = 255 <<< (8 * k)) (hshift : shift.toNat % 64 = 8 * k) :
    (b.toUInt64 <<< shift &&& mask).toNat = b.toNat <<< (8 * k) := by
  rw [UInt64.toNat_and, UInt64.toNat_shiftLeft, UInt8.toNat_toUInt64, hmask, hshift,
    Nat.mod_eq_of_lt (shifted_byte_lt b hk), shifted_byte_and]

theorem bytesToInt32_eq (b0 b1 b2 b3 : UInt8) (rest : List UInt8) :
    bytesToInt32 ([b0, b1, b2, b3] ++ rest) =
      (UInt32.ofNat (ofLeBytes [b0, b1, b2, b3])).toInt32 := by
  have h0 : (b0.toUInt32 &&& 0xff).toNat = b0.toNat := by
    rw [UInt32.toNat_and, UInt8.toNat_toUInt32]
    show b0.toNat &&& 255 = b0.toNat
    rw [and_byte, Nat.mod_eq_of_lt b0.toNat_lt]
  have hword : ofLeBytes [b0, b1, b2, b3] < 256 ^ 4 := ofLeBytes_lt _
  apply congrArg UInt32.toInt32
  apply UInt32.toNat_inj.mp
  simp only [byteAt, List.cons_append, List.nil_append, List.getD_cons_zero, List.getD_cons_succ]
  rw [UInt32.toNat_or, UInt32.toNat_or, UInt32.toNat_or, h0, mask_of_byte32 1 (by omega) rfl rfl,
    mask_of_byte32 2 (by omega) rfl rfl, mask_of_byte32 3 (by omega) rfl rfl,
    UInt32.toNat_ofNat_of_lt' hword]
  exact or_bytes b0 [b1, b2, b3]

theorem longFromBytes_eq (b0 b1 b2 b3 b4 b5 b6 b7 : UInt8) (rest : List UInt8) :
    longFromBytes ([b0, b1, b2, b3, b4, b5, b6, b7] ++ rest) =
      (UInt64.ofNat (ofLeBytes [b0, b1, b2, b3, b4, b5, b6, b7])).toInt64 := by
  have h0 : (b0.toUInt64 &&& 0xff).toNat = b0.toNat := by
    rw [UInt64.toNat_and, UInt8.toNat_toUInt64]
    show b0.toNat &&& 255 = b0.toNat
    rw [and_byte, Nat.mod_eq_of_lt b0.toNat_lt]
  have hword : ofLeBytes [b0, b1, b2, b3, b4, b5, b6, b7] < 256 ^ 8 := ofLeBytes_lt _
  apply congrArg UInt64.toInt64
  apply UInt64.toNat_inj.mp
  simp only [byteAt, List.cons_append, List.nil_append, List.getD_cons_zero, List.getD_cons_succ]
  simp only [UInt64.toNat_or, h0]
  rw [mask_of_byte64 1 (by omega) rfl rfl,
    mask_of_byte64 2 (by omega) rfl rfl, mask_of_byte64 3 (by omega) rfl rfl,
    mask_of_byte64 4 (by omega) rfl rfl, mask_of_byte64 5 (by omega) rfl rfl,
    mask_of_byte64 6 (by omega) rfl rfl, mask_of_byte64 7 (by omega) rfl rfl,
    UInt64.toNat_ofNat_of_lt' hword]
  exact or_bytes b0 [b1, b2, b3, b4, b5, b6, b7]

theorem bytesToInt32_int32ToByte (i : UInt32) (rest : List UInt8) :
    bytesToInt32 (int32ToByte i ++ rest) = i.toInt32 := by
  have hback : ofLeBytes (leBytes 4 i.toNat) = i.toNat := by
    rw [ofLeBytes_leBytes]
    exact Nat.mod_eq_of_lt i.toNat_lt
  rw [int32ToByte_eq, leBytes, leBytes, leBytes, leBytes, leBytes, bytesToInt32_eq]
  show (UInt32.ofNat (ofLeBytes (leBytes 4 i.toNat))).toInt32 = i.toInt32
  rw [hback, UInt32.ofNat_toNat]

theorem longFromBytes_int64ToByte (i : Int64) (rest : List UInt8) :
    longFromBytes (int64ToByte i ++ rest) = i := by
  have hback : ofLeBytes (leBytes 8 i.toUInt64.toNat) = i.toUInt64.toNat := by
    rw [ofLeBytes_leBytes]
    exact Nat.mod_eq_of_lt i.toUInt64.toNat_lt
  rw [int64ToByte_eq, leBytes, leBytes, leBytes, leBytes, leBytes, leBytes, leBytes, leBytes,
    leBytes, longFromBytes_eq]
  show (UInt64.ofNat (ofLeBytes (leBytes 8 i.toUInt64.toNat))).toInt64 = i
  rw [hback, UInt64.ofNat_toNat]
  exact Int64.toInt64_toUInt64 i

/-! ## The record as a whole -/

theorem fillRecord_eq (hour min sec : Int32) (time : Timespec) :
    fillRecord hour min sec time =
      int32ToByte hour.toUInt32 ++ (int32ToByte min.toUInt32 ++ (int32ToByte sec.toUInt32 ++
        (int64ToByte time.tvSec ++ (int32ToByte time.tvNsec.toUInt64.toUInt32 ++
          List.replicate 26 0)))) := rfl

@[simp] theorem length_fillRecord (hour min sec : Int32) (time : Timespec) :
    (fillRecord hour min sec time).length = bufferSize := rfl

theorem longFromBytes_fillRecord (hour min sec : Int32) (time : Timespec) :
    longFromBytes ((fillRecord hour min sec time).drop 12) = time.tvSec := by
  have hdrop : (fillRecord hour min sec time).drop 12 =
      int64ToByte time.tvSec ++
        (int32ToByte time.tvNsec.toUInt64.toUInt32 ++ List.replicate 26 0) := rfl
  rw [hdrop, longFromBytes_int64ToByte]

theorem bytesToInt32_fillRecord (hour min sec : Int32) (time : Timespec) :
    bytesToInt32 ((fillRecord hour min sec time).drop 20) =
      time.tvNsec.toUInt64.toUInt32.toInt32 := by
  have hdrop : (fillRecord hour min sec time).drop 20 =
      int32ToByte time.tvNsec.toUInt64.toUInt32 ++ List.replicate 26 0 := rfl
  rw [hdrop, bytesToInt32_int32ToByte]

/-- What the server makes of a record: everything but the seconds is as it was sent. -/
theorem decodeRecord_fillRecord (hour min sec : Int32) (time : Timespec) :
    decodeRecord (fillRecord hour min sec time) =
      { hour := hour
        min := min
        sec := sec
        tsSec := time.tvSec.toInt32.toInt64
        tsNsec := time.tvNsec.toUInt64.toUInt32 } := by
  have hmin : (fillRecord hour min sec time).drop 4 =
      int32ToByte min.toUInt32 ++ (int32ToByte sec.toUInt32 ++ (int64ToByte time.tvSec ++
        (int32ToByte time.tvNsec.toUInt64.toUInt32 ++ List.replicate 26 0))) := rfl
  have hsec : (fillRecord hour min sec time).drop 8 =
      int32ToByte sec.toUInt32 ++ (int64ToByte time.tvSec ++
        (int32ToByte time.tvNsec.toUInt64.toUInt32 ++ List.replicate 26 0)) := rfl
  rw [decodeRecord, hmin, hsec, bytesToInt64, longFromBytes_fillRecord, bytesToInt32_fillRecord,
    fillRecord_eq]
  simp only [bytesToInt32_int32ToByte]
  rfl

theorem toInt64_toInt32_eq_iff (x : Int64) : x.toInt32.toInt64 = x ↔ FitsInt32 x.toInt := by
  rw [← Int64.toInt_inj, Int32.toInt_toInt64, Int64.toInt_toInt32]
  exact bmod32_eq_iff_fits

theorem toNat_tvNsec {time : Timespec} (h : time.Valid) :
    (time.tvNsec.toUInt64.toUInt32.toNat : Int) = time.tvNsec.toInt := by
  obtain ⟨hlo, hhi⟩ := h
  rw [toNat_toUInt32]
  omega

def RoundTrips (hour min sec : Int32) (time : Timespec) : Prop :=
  let got := decodeRecord (fillRecord hour min sec time)
  got.hour = hour ∧ got.min = min ∧ got.sec = sec ∧ got.tsSec = time.tvSec ∧
    (got.tsNsec.toNat : Int) = time.tvNsec.toInt

/-- The record round-trips exactly when the seconds fit the `int` that
`bytes_to_int64` returns. -/
theorem roundTrips_iff (hour min sec : Int32) {time : Timespec} (h : time.Valid) :
    RoundTrips hour min sec time ↔ FitsInt32 time.tvSec.toInt := by
  simp only [RoundTrips, decodeRecord_fillRecord, true_and, toNat_tvNsec h, and_true]
  exact toInt64_toInt32_eq_iff time.tvSec

theorem roundTrips_iff_in_2025 :
    RoundTrips 8 30 0 ⟨1750000000, 999999999⟩ ↔ FitsInt32 1750000000 :=
  @roundTrips_iff 8 30 0 ⟨1750000000, 999999999⟩ (by decide)

theorem not_roundTrips_in_2038 :
    ¬ ∀ (hour min sec : Int32) (time : Timespec), time.Valid →
      RoundTrips hour min sec time := by
  intro h
  have hsec := (h 3 14 8 ⟨2147483648, 0⟩ (by decide)).2.2.2.1
  rw [decodeRecord_fillRecord] at hsec
  exact absurd hsec (by decide)

end TimeTools.Timer
