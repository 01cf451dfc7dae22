/-!
# FlowRelay.Gzip.Crc32

The cyclic redundancy check of gzip: the reflected polynomial `0xEDB88320`, all bits of the register
set at the start and inverted at the end.
-/

namespace FlowRelay.Gzip

/-- Shift one bit out of the register. -/
def crc32Bit (register : UInt32) : UInt32 :=
  if register &&& 1 == 1 then (register >>> 1) ^^^ 0xEDB88320 else register >>> 1

/-- Feed one byte, least significant bit first. -/
def crc32Byte (register : UInt32) (b : UInt8) : UInt32 :=
  let r := register ^^^ b.toUInt32
  crc32Bit (crc32Bit (crc32Bit (crc32Bit (crc32Bit (crc32Bit (crc32Bit (crc32Bit r)))))))

/-- The check value of the bytes. -/
def crc32 (bytes : List UInt8) : UInt32 :=
  (bytes.foldl crc32Byte 0xFFFFFFFF) ^^^ 0xFFFFFFFF

example : crc32 [0x31, 0x32, 0x33, 0x34, 0x35, 0x36, 0x37, 0x38, 0x39] = 0xCBF43926 := by
  decide +kernel

end FlowRelay.Gzip
