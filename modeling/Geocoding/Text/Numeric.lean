import Geocoding.Text.CharSet

/-!
# Numeric characters

The Unicode general categories of numbers: decimal digits (`Nd`) apart, letter-like and other
numbers (`Nl`, `No`) together.
-/

namespace Geocoding.Text

/-- The decimal digits of all scripts, general category `Nd`. -/
def decimalDigits : CharSet where
  changes := [
    0x30, 0x3a, 0x660, 0x66a, 0x6f0, 0x6fa, 0x7c0, 0x7ca, 0x966, 0x970, 0x9e6, 0x9f0, 0xa66,
    0xa70, 0xae6, 0xaf0, 0xb66, 0xb70, 0xbe6, 0xbf0, 0xc66, 0xc70, 0xce6, 0xcf0, 0xd66, 0xd70,
    0xde6, 0xdf0, 0xe50, 0xe5a, 0xed0, 0xeda, 0xf20, 0xf2a, 0x1040, 0x104a, 0x1090, 0x109a,
    0x17e0, 0x17ea, 0x1810, 0x181a, 0x1946, 0x1950, 0x19d0, 0x19da, 0x1a80, 0x1a8a, 0x1a90,
    0x1a9a, 0x1b50, 0x1b5a, 0x1bb0, 0x1bba, 0x1c40, 0x1c4a, 0x1c50, 0x1c5a, 0xa620, 0xa62a,
    0xa8d0, 0xa8da, 0xa900, 0xa90a, 0xa9d0, 0xa9da, 0xa9f0, 0xa9fa, 0xaa50, 0xaa5a, 0xabf0,
    0xabfa, 0xff10, 0xff1a, 0x104a0, 0x104aa, 0x10d30, 0x10d3a, 0x10d40, 0x10d4a, 0x11066,
    0x11070, 0x110f0, 0x110fa, 0x11136, 0x11140, 0x111d0, 0x111da, 0x112f0, 0x112fa, 0x11450,
    0x1145a, 0x114d0, 0x114da, 0x11650, 0x1165a, 0x116c0, 0x116ca, 0x116d0, 0x116e4, 0x11730,
    0x1173a, 0x118e0, 0x118ea, 0x11950, 0x1195a, 0x11bf0, 0x11bfa, 0x11c50, 0x11c5a, 0x11d50,
    0x11d5a, 0x11da0, 0x11daa, 0x11de0, 0x11dea, 0x11f50, 0x11f5a, 0x16130, 0x1613a, 0x16a60,
    0x16a6a, 0x16ac0, 0x16aca, 0x16b50, 0x16b5a, 0x16d70, 0x16d7a, 0x1ccf0, 0x1ccfa, 0x1d7ce,
    0x1d800, 0x1e140, 0x1e14a, 0x1e2f0, 0x1e2fa, 0x1e4f0, 0x1e4fa, 0x1e5f1, 0x1e5fb, 0x1e950,
    0x1e95a, 0x1fbf0, 0x1fbfa]

/-- The numbers that are no decimal digits, general categories `Nl` and `No`. -/
def otherNumbers : CharSet where
  changes := [
    0xb2, 0xb4, 0xb9, 0xba, 0xbc, 0xbf, 0x9f4, 0x9fa, 0xb72, 0xb78, 0xbf0, 0xbf3, 0xc78, 0xc7f,
    0xd58, 0xd5f, 0xd70, 0xd79, 0xf2a, 0xf34, 0x1369, 0x137d, 0x16ee, 0x16f1, 0x17f0, 0x17fa,
    0x19da, 0x19db, 0x2070, 0x2071, 0x2074, 0x207a, 0x2080, 0x208a, 0x2150, 0x2183, 0x2185,
    0x218a, 0x2460, 0x249c, 0x24ea, 0x2500, 0x2776, 0x2794, 0x2cfd, 0x2cfe, 0x3007, 0x3008,
    0x3021, 0x302a, 0x3038, 0x303b, 0x3192, 0x3196, 0x3220, 0x322a, 0x3248, 0x3250, 0x3251,
    0x3260, 0x3280, 0x328a, 0x32b1, 0x32c0, 0xa6e6, 0xa6f0, 0xa830, 0xa836, 0x10107, 0x10134,
    0x10140, 0x10179, 0x1018a, 0x1018c, 0x102e1, 0x102fc, 0x10320, 0x10324, 0x10341, 0x10342,
    0x1034a, 0x1034b, 0x103d1, 0x103d6, 0x10858, 0x10860, 0x10879, 0x10880, 0x108a7, 0x108b0,
    0x108fb, 0x10900, 0x10916, 0x1091c, 0x109bc, 0x109be, 0x109c0, 0x109d0, 0x109d2, 0x10a00,
    0x10a40, 0x10a49, 0x10a7d, 0x10a7f, 0x10a9d, 0x10aa0, 0x10aeb, 0x10af0, 0x10b58, 0x10b60,
    0x10b78, 0x10b80, 0x10ba9, 0x10bb0, 0x10cfa, 0x10d00, 0x10e60, 0x10e7f, 0x10f1d, 0x10f27,
    0x10f51, 0x10f55, 0x10fc5, 0x10fcc, 0x11052, 0x11066, 0x111e1, 0x111f5, 0x1173a, 0x1173c,
    0x118ea, 0x118f3, 0x11c5a, 0x11c6d, 0x11fc0, 0x11fd5, 0x12400, 0x1246f, 0x16b5b, 0x16b62,
    0x16e80, 0x16e97, 0x16ff4, 0x16ff7, 0x1d2c0, 0x1d2d4, 0x1d2e0, 0x1d2f4, 0x1d360, 0x1d379,
    0x1e8c7, 0x1e8d0, 0x1ec71, 0x1ecac, 0x1ecad, 0x1ecb0, 0x1ecb1, 0x1ecb5, 0x1ed01, 0x1ed2e,
    0x1ed2f, 0x1ed3e, 0x1f100, 0x1f10d]

end Geocoding.Text
