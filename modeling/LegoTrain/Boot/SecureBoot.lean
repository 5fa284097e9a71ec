import LegoTrain.Boot.MediaBoot

/-!
# Secure boot

What does `img_valid` say about an image on a device whose efuse asks for signatures?  The
hash of the public key is always compared with the efuse.  The answer of
`sec_ecdsa_verify` is not looked at, and the global `g_user_hash_ignored` turns the check of
the image's hash off.

* `Authentic` : what a signed image should have proved;
* `authentic_iff` : `img_valid` says so exactly for the images of which the condition says it;
* `img_valid_unsigned` : an image whose signature is refused, with `img_valid` set.
-/

namespace Boot

open ByteMem Flash SoftCrc Checked

/-! ## The signature record in flash -/

section SignatureRecord

variable (flash : Mem) (addr : ℕ)

/-- The signature of the record in flash. -/
def signatureAt : List UInt8 := flashRead flash (u32 (sigAddr addr + 4)) (sigLenAt flash addr)

/-- The signature as it stands in a cleared `boot2_image_config`. -/
def signatureField : List UInt8 :=
  signatureAt flash addr ++ List.replicate (bflbBoot2SignMaxsize - sigLenAt flash addr) 0

/-- The answer of `sec_ecdsa_verify` for the key, the hash and the signature in flash. -/
def ecdsaAt (sec : SecEng) : Bool :=
  sec.ecdsaVerify (BootPk.eckyeX (pkAt flash addr)) (BootPk.eckeyY (pkAt flash addr))
    (headerAt flash addr).hash ((signatureField flash addr).take 32)
    (((signatureField flash addr).drop 32).take 32)

end SignatureRecord

section SigBuffer

variable {flash readBuf : Mem} {addr : ℕ}

/-- A signature record of proper length is parsed as it stands in flash. -/
theorem read_sigBuffer (hlen : sigLenAt flash addr ≤ bflbBoot2SignMaxsize) :
    read (sigBuffer flash readBuf addr) 0 4 = leBytes 4 (sigLenAt flash addr) ∧
      read (sigBuffer flash readBuf addr) 4 (sigLenAt flash addr + 4) =
        flashRead flash (u32 (sigAddr addr + 4)) (sigLenAt flash addr + 4) := by
  have hmax : sigLenAt flash addr + 8 ≤ bootSignConfigSize := by
    unfold bflbBoot2SignMaxsize at hlen
    unfold bootSignConfigSize
    omega
  have hsub : ∀ o n, o + n ≤ bootSignConfigSize → read (sigBuffer flash readBuf addr) o n =
      read (loadSignature flash (pkBuffer flash readBuf addr) (sigAddr addr) (sigLenAt flash addr))
        o n := by
    intro o n h
    rw [sigBuffer, if_pos hlen, read_ofBytes (by rw [length_read]; exact h), read_sub h,
      Nat.zero_add]
  rw [hsub 0 4 (by decide), hsub 4 _ (by omega)]
  constructor
  · have hsame := read_write_same (write (pkBuffer flash readBuf addr) 4
      (flashRead flash (u32 (sigAddr addr + 4)) (sigLenAt flash addr + 4))) 0
      (leBytes 4 (sigLenAt flash addr))
    rwa [length_leBytes] at hsame
  · have hsame := read_write_same (pkBuffer flash readBuf addr) 4
      (flashRead flash (u32 (sigAddr addr + 4)) (sigLenAt flash addr + 4))
    rw [length_flashRead] at hsame
    rw [loadSignature, read_write_disjoint (by rw [length_leBytes]; omega), hsame]

theorem sigLen_sigBuffer (hlen : sigLenAt flash addr ≤ bflbBoot2SignMaxsize) :
    BootSign.sigLen (sigBuffer flash readBuf addr) = sigLenAt flash addr := by
  have hword : sigLenAt flash addr < 256 ^ 4 := by
    have h := leNat_lt (flashRead flash (sigAddr addr) 4)
    rwa [length_flashRead] at h
  rw [BootSign.sigLen, le, (read_sigBuffer hlen).1, leNat_leBytes_of_lt hword]

theorem signature_sigBuffer (hlen : sigLenAt flash addr ≤ bflbBoot2SignMaxsize) :
    BootSign.signature (sigBuffer flash readBuf addr) = signatureAt flash addr := by
  have htake := take_read (m := sigBuffer flash readBuf addr) (a := 4)
    (Nat.le_add_right (sigLenAt flash addr) 4)
  rw [(read_sigBuffer hlen).2, flashRead_append, List.take_left' (length_flashRead _ _ _)] at htake
  rw [BootSign.signature, sigLen_sigBuffer hlen, ← htake, signatureAt]

/-- When the parser takes a signature record that stands in flash. -/
theorem sigRecordOk_iff (hlen : sigLenAt flash addr ≤ bflbBoot2SignMaxsize) :
    SigRecordOk (sigBuffer flash readBuf addr) ↔
      leBytes 4 (bflbSoftCrc32 (leBytes 4 (sigLenAt flash addr) ++ signatureAt flash addr)) =
        flashRead flash (u32 (u32 (sigAddr addr + 4) + sigLenAt flash addr)) 4 := by
  have hdrop := drop_read (m := sigBuffer flash readBuf addr) (a := 4)
    (Nat.le_add_right (sigLenAt flash addr) 4)
  rw [(read_sigBuffer hlen).2, flashRead_append, List.drop_left' (length_flashRead _ _ _),
    Nat.add_sub_cancel_left] at hdrop
  have hread : read (sigBuffer flash readBuf addr) 0 (sigLenAt flash addr + 4) =
      leBytes 4 (sigLenAt flash addr) ++ signatureAt flash addr := by
    have hsig : BootSign.signature (sigBuffer flash readBuf addr) = signatureAt flash addr :=
      signature_sigBuffer hlen
    rw [BootSign.signature, sigLen_sigBuffer hlen] at hsig
    rw [Nat.add_comm, read_append, (read_sigBuffer hlen).1, Nat.zero_add, hsig]
  constructor
  · intro h
    have hcrc := h.crc
    rw [sigLen_sigBuffer hlen, hread, BootSign.crc32, sigLen_sigBuffer hlen, ← hdrop] at hcrc
    exact hcrc
  · intro h
    refine ⟨by rw [sigLen_sigBuffer hlen]; exact hlen, ?_⟩
    rw [sigLen_sigBuffer hlen, hread, BootSign.crc32, sigLen_sigBuffer hlen, ← hdrop]
    exact h

/-- What `blsp_boot_parser_check_signature` asks the security engine for. -/
theorem ecdsaOfCfg_eq (sec : SecEng) (g : Globals) (imgAddr : ℕ)
    (hsign : (headerAt flash addr).sign ≠ 0) (hlen : sigLenAt flash addr ≤ bflbBoot2SignMaxsize) :
    ecdsaOfCfg sec (finalCfg g flash readBuf addr imgAddr BootImgCfg.zero) =
      ecdsaAt flash addr sec := by
  have hcfg : (finalCfg g flash readBuf addr imgAddr BootImgCfg.zero).eckyeX =
        BootPk.eckyeX (pkAt flash addr) ∧
      (finalCfg g flash readBuf addr imgAddr BootImgCfg.zero).eckeyY =
        BootPk.eckeyY (pkAt flash addr) ∧
      (finalCfg g flash readBuf addr imgAddr BootImgCfg.zero).imgHash =
        (headerAt flash addr).hash ∧
      (finalCfg g flash readBuf addr imgAddr BootImgCfg.zero).signature =
        BootSign.signature (sigBuffer flash readBuf addr) ++
          BootImgCfg.zero.signature.drop (BootSign.sigLen (sigBuffer flash readBuf addr)) := by
    unfold finalCfg parsedCfg signedCfg
    rw [if_pos hsign]
    split <;> exact ⟨rfl, rfl, rfl, rfl⟩
  obtain ⟨hx, hy, hhash, hsig⟩ := hcfg
  have hzero : BootImgCfg.zero.signature.drop (sigLenAt flash addr) =
      List.replicate (bflbBoot2SignMaxsize - sigLenAt flash addr) 0 := List.drop_replicate
  rw [ecdsaOfCfg, hx, hy, hhash, hsig, signature_sigBuffer hlen, sigLen_sigBuffer hlen, hzero]
  rfl

end SigBuffer

/-! ## What `img_valid` says -/

/-- What a signed image should have proved: its key is the one of the efuse, its hash is the
one of the header, and its signature over that hash is accepted. -/
structure Authentic (sec : SecEng) (g : Globals) (flash : Mem) (addr imgAddr : ℕ) : Prop where
  key : sec.sha256 (BootPk.key (pkAt flash addr)) = g.efuseCfg.pkHashCpu0
  hash : HashMatches sec flash addr imgAddr
  record : sigLenAt flash addr ≤ bflbBoot2SignMaxsize
  signature : ecdsaAt flash addr sec = true

/-- The image is refused: a record is not taken, it has segments, or its hash is checked and
wrong. -/
def Refused (sec : SecEng) (g : Globals) (flash readBuf : Mem) (addr imgAddr : ℕ) : Prop :=
  ¬ RecordsOk sec g flash readBuf addr ∨ (headerAt flash addr).noSegment = 0 ∨
    (g.userHashIgnored = 0 ∧ ¬ HashMatches sec flash addr imgAddr)

theorem hashIgnoreOf_signed {g : Globals} {header : BootHeader} (hsigned : g.efuseCfg.sign 0 ≠ 0)
    (hexempt : ¬ hbnExempt g) :
    hashIgnoreOf g header 0 = 0 ↔ g.userHashIgnored = 0 := by
  have hclear : (header.hashIgnore = 1 ∧ header.hashWord ≠ bflbBoot2DeadbeefVal) ∨
      g.efuseCfg.sign 0 ≠ 0 := .inr hsigned
  by_cases huser : g.userHashIgnored = 0
  · rw [hashIgnoreOf, if_neg (not_not_intro huser), if_neg hexempt, if_pos hclear]
    exact ⟨fun _ => huser, fun _ => rfl⟩
  · rw [hashIgnoreOf, if_pos huser]
    exact ⟨nofun, fun h => absurd h huser⟩

theorem imgValid_iff_not_refused {sec : SecEng} {g : Globals} {flash : Mem} {addr imgAddr : ℕ}
    {s : BootState} (hsigned : g.efuseCfg.sign 0 ≠ 0) (hexempt : ¬ hbnExempt g)
    (h0 : s.cfg.imgValid = 0) :
    (finalState (blspMediabootParseOneFw sec g flash addr imgAddr s)).cfg.imgValid = 1 ↔
      ¬ Refused sec g flash s.readBuf addr imgAddr := by
  rw [imgValid_iff sec g flash addr imgAddr s h0, Refused, ImgHashOk,
    hashIgnoreOf_signed hsigned hexempt]
  constructor
  · rintro ⟨hok, himg, hseg⟩ (h | h | ⟨hign, hne⟩)
    · exact h hok
    · exact hseg h
    · exact hne (himg hseg hign)
  · intro h
    have hseg : (headerAt flash addr).noSegment ≠ 0 := fun hs => h (.inr (.inl hs))
    refine ⟨not_not.1 fun hok => h (.inl hok), fun _ hign => ?_, hseg⟩
    exact not_not.1 fun hne => h (.inr (.inr ⟨hign, hne⟩))

/-- **Secure boot.**  `img_valid` tells that an image is authentic exactly for the images that
are refused and for those whose hash and signature are right: nothing refuses an image for
its signature. -/
theorem authentic_iff {sec : SecEng} {g : Globals} {flash : Mem} {addr imgAddr : ℕ}
    {s : BootState} (hsigned : g.efuseCfg.sign 0 ≠ 0) (hexempt : ¬ hbnExempt g)
    (hcfg : s.cfg = BootImgCfg.zero) :
    ((finalState (blspMediabootParseOneFw sec g flash addr imgAddr s)).cfg.imgValid = 1 →
        Authentic sec g flash addr imgAddr) ↔
      Refused sec g flash s.readBuf addr imgAddr ∨
        (HashMatches sec flash addr imgAddr ∧ sigLenAt flash addr ≤ bflbBoot2SignMaxsize ∧
          ecdsaAt flash addr sec = true) := by
  rw [imgValid_iff_not_refused hsigned hexempt (by rw [hcfg]; rfl)]
  constructor
  · intro h
    by_cases href : Refused sec g flash s.readBuf addr imgAddr
    · exact .inl href
    · have hauth := h href
      exact .inr ⟨hauth.hash, hauth.record, hauth.signature⟩
  · rintro (href | ⟨hhash, hrecord, hsig⟩) hvalid
    · exact absurd href hvalid
    · have hok : RecordsOk sec g flash s.readBuf addr := not_not.1 fun h => hvalid (.inl h)
      have hsign : (headerAt flash addr).sign ≠ 0 := hok.header.sign ▸ hsigned
      exact ⟨(hok.pk hsign).hash, hhash, hrecord, hsig⟩

/-! ## An image that nobody signed -/

/-- The SHA-256 of 64 zeros. -/
def zeroKeyHash : List UInt8 :=
  (leBytes 32 0xf5a5fd42d16a20302798ef6ed309979b43003d2320d9f0e8ea9831a92759fb4b).reverse

/-- The SHA-256 of one zero. -/
def zeroImgHash : List UInt8 :=
  (leBytes 32 0x6e340b9cffb37a989ca544e6bb780a2c78901d3fb33738768511a30617afa01d).reverse

/-- A security engine that knows these two hashes and accepts no signature. -/
def strictSecEng : SecEng where
  sha256 data := if data = [0] then zeroImgHash
    else if data = List.replicate 64 0 then zeroKeyHash else []
  ecdsaVerify _ _ _ _ _ := false

/-- A device that asks for signatures with the key of zeros, in a normal boot. -/
def signedGlobals : Globals where
  efuseCfg := ⟨fun _ => 0, fun _ => 1, 0, zeroKeyHash, []⟩
  psMode := 0
  userHashIgnored := 0

/-- A header of CPU 0 for a signed image of one byte without segments, whose CRC is not to be
checked. -/
def unsignedHeader : List UInt8 :=
  bflbBoot2Cpu0Magic ++ List.replicate 112 0 ++ leBytes 4 0x10101 ++ leBytes 4 1 ++
    List.replicate 8 0 ++ zeroImgHash ++ List.replicate 8 0 ++ leBytes 4 bflbBoot2DeadbeefVal

/-- The public key of zeros with its CRC. -/
def zeroPk : List UInt8 :=
  List.replicate 64 0 ++ leBytes 4 (bflbSoftCrc32 (List.replicate 64 0))

/-- A signature record of length zero with its CRC. -/
def emptySignature : List UInt8 := leBytes 4 0 ++ leBytes 4 (bflbSoftCrc32 (leBytes 4 0))

/-- A flash with the image `0x00` in the slot at `0x2F000`. -/
def unsignedFlash : Mem :=
  write (write (fun _ => 0xFF) 0x30000 [0]) 0x2F000 (unsignedHeader ++ (zeroPk ++ emptySignature))

theorem length_unsignedHeader : unsignedHeader.length = bootHeaderConfigSize := by decide +kernel

theorem length_zeroPk : zeroPk.length = bootPkConfigSize := by
  rw [zeroPk, List.length_append, List.length_replicate, length_leBytes]
  rfl

theorem flashRead_unsignedFlash {o n : ℕ} (h : o + n ≤ 252) :
    flashRead unsignedFlash (0x2F000 + o) n =
      ((unsignedHeader ++ (zeroPk ++ emptySignature)).drop o).take n := by
  have hle : 0x2F000 + o + n ≤ 2 ^ 32 := by omega
  have hlen : o + n ≤ (unsignedHeader ++ (zeroPk ++ emptySignature)).length := by
    rw [List.length_append, List.length_append, length_unsignedHeader, length_zeroPk,
      emptySignature, List.length_append, length_leBytes, length_leBytes]
    exact h
  rw [flashRead_eq hle, unsignedFlash, read_write_sub hlen]

theorem headerAt_unsignedFlash : headerAt unsignedFlash 0x2F000 = ofBytes unsignedHeader := by
  have h := flashRead_unsignedFlash (o := 0) (n := bootHeaderConfigSize) (by decide)
  rw [List.drop_zero, List.take_left' length_unsignedHeader, Nat.add_zero] at h
  rw [headerAt, h]

theorem pkAt_unsignedFlash : pkAt unsignedFlash 0x2F000 = ofBytes zeroPk := by
  have haddr : pkAddr 0x2F000 = 0x2F000 + bootHeaderConfigSize := by decide
  have h := flashRead_unsignedFlash (o := bootHeaderConfigSize) (n := bootPkConfigSize) (by decide)
  rw [List.drop_left' length_unsignedHeader, List.take_left' length_zeroPk] at h
  rw [pkAt, haddr, h]

theorem sigLenAt_unsignedFlash : sigLenAt unsignedFlash 0x2F000 = 0 := by
  have haddr : sigAddr 0x2F000 = 0x2F000 + 244 := by decide
  have hlen : (unsignedHeader ++ zeroPk).length = 244 := by
    rw [List.length_append, length_unsignedHeader, length_zeroPk]
    rfl
  have h := flashRead_unsignedFlash (o := 244) (n := 4) (by decide)
  rw [← List.append_assoc, List.drop_left' hlen, emptySignature,
    List.take_left' (length_leBytes 4 0)] at h
  rw [sigLenAt, haddr, h]
  rfl

theorem headerOk_unsignedFlash : HeaderOk signedGlobals (headerAt unsignedFlash 0x2F000) := by
  rw [headerAt_unsignedFlash]
  exact ⟨by decide +kernel, by decide +kernel, by decide +kernel, fun h => absurd rfl h,
    by decide +kernel, by decide +kernel⟩

theorem pkOk_unsignedFlash : PkOk strictSecEng signedGlobals (pkAt unsignedFlash 0x2F000) := by
  have hkey : read (ofBytes zeroPk) 0 64 = List.replicate 64 0 := by
    rw [read_ofBytes (by rw [length_zeroPk]; decide), List.drop_zero, zeroPk,
      List.take_left' List.length_replicate]
  have hcrc : read (ofBytes zeroPk) 64 4 = leBytes 4 (bflbSoftCrc32 (List.replicate 64 0)) := by
    rw [read_ofBytes (by rw [length_zeroPk]; decide), zeroPk, List.drop_left' List.length_replicate]
    exact List.take_of_length_le (Nat.le_of_eq (length_leBytes 4 _))
  rw [pkAt_unsignedFlash]
  refine ⟨?_, ?_⟩
  · show leNat (read (ofBytes zeroPk) 64 4) = bflbSoftCrc32 (read (ofBytes zeroPk) 0 64)
    rw [hcrc, hkey, leNat_leBytes_of_lt (bflbSoftCrc32_lt _)]
  · show strictSecEng.sha256 (read (ofBytes zeroPk) 0 64) = zeroKeyHash
    rw [hkey]
    decide +kernel

theorem sigRecordOk_unsignedFlash (readBuf : Mem) :
    SigRecordOk (sigBuffer unsignedFlash readBuf 0x2F000) := by
  have hlen := sigLenAt_unsignedFlash
  have haddr : u32 (u32 (sigAddr 0x2F000 + 4) + 0) = 0x2F000 + 248 := by decide
  have hdrop : (unsignedHeader ++ (zeroPk ++ leBytes 4 0)).length = 248 := by
    rw [List.length_append, List.length_append, length_unsignedHeader, length_zeroPk,
      length_leBytes]
    rfl
  have h := flashRead_unsignedFlash (o := 248) (n := 4) (by decide)
  rw [emptySignature, ← List.append_assoc, ← List.append_assoc, List.append_assoc unsignedHeader,
    List.drop_left' hdrop, List.take_of_length_le (Nat.le_of_eq (length_leBytes 4 _))] at h
  rw [sigRecordOk_iff (by rw [hlen]; decide), signatureAt, hlen, haddr, h]
  rfl

/-- The image is taken although no signature of it is ever accepted. -/
theorem img_valid_unsigned :
    (finalState (blspMediabootParseOneFw strictSecEng signedGlobals unsignedFlash 0x2F000 0x30000
        ⟨BootImgCfg.zero, fun _ => 0, []⟩)).cfg.imgValid = 1 ∧
      ¬ Authentic strictSecEng signedGlobals unsignedFlash 0x2F000 0x30000 := by
  constructor
  · rw [imgValid_iff strictSecEng signedGlobals unsignedFlash 0x2F000 0x30000 _ rfl]
    have hheader := headerAt_unsignedFlash
    refine ⟨⟨headerOk_unsignedFlash, fun _ => pkOk_unsignedFlash,
      fun _ => sigRecordOk_unsignedFlash _, fun h => absurd ?_ h⟩, fun _ _ => ?_, ?_⟩
    · rw [hheader]
      decide +kernel
    · unfold HashMatches hashedPrefix
      rw [hheader]
      decide +kernel
    · rw [hheader]
      decide +kernel
  · intro h
    exact absurd h.signature nofun

/-- The theorem on the same device, at a slot that holds nothing. -/
theorem authentic_iff_erased :
    ((finalState (blspMediabootParseOneFw strictSecEng signedGlobals (fun _ => 0xFF) 0x2F000 0x30000
        ⟨BootImgCfg.zero, fun _ => 0, []⟩)).cfg.imgValid = 1 →
        Authentic strictSecEng signedGlobals (fun _ => 0xFF) 0x2F000 0x30000) ↔
      Refused strictSecEng signedGlobals (fun _ => 0xFF) (fun _ => 0) 0x2F000 0x30000 ∨
        (HashMatches strictSecEng (fun _ => 0xFF) 0x2F000 0x30000 ∧
          sigLenAt (fun _ => 0xFF) 0x2F000 ≤ bflbBoot2SignMaxsize ∧
          ecdsaAt (fun _ => 0xFF) 0x2F000 strictSecEng = true) :=
  authentic_iff (s := ⟨BootImgCfg.zero, fun _ => 0, []⟩) (by decide) (by decide) rfl

end Boot
