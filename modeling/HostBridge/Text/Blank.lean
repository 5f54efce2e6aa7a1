namespace HostBridge

def isBlank (c : Char) : Bool :=
  c.val = 0x20 || (0x9 ≤ c.val && c.val ≤ 0xd) || c.val = 0x85 || c.val = 0xa0 || c.val = 0x1680 ||
    (0x2000 ≤ c.val && c.val ≤ 0x200a) || c.val = 0x2028 || c.val = 0x2029 || c.val = 0x202f ||
    c.val = 0x205f || c.val = 0x3000

end HostBridge
