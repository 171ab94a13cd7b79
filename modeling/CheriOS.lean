import CheriOS.Kernel.Lifecycle
import CheriOS.Kernel.Fifo
import CheriOS.Kernel.Reply
import CheriOS.Kernel.Bypass
import CheriOS.LibUser.Answer
import CheriOS.Memmgt.Isolation
import CheriOS.Memmgt.Unmap
import CheriOS.Memmgt.Recycle
import CheriOS.Memmgt.Reuse
import CheriOS.Sockets.Peering
import CheriOS.Sockets.Owner
import CheriOS.Kernel.Frames
import CheriOS.Kernel.Stranded
import CheriOS.Kernel.Callers
import CheriOS.Kernel.Lines
import CheriOS.Kernel.Send
import CheriOS.Kernel.Identifier
import CheriOS.Kernel.Timer
import CheriOS.Kernel.Uptime
import CheriOS.Kernel.Name
import CheriOS.Virtio.Protocol
import CheriOS.Boot.Alloc
import CheriOS.Boot.Layout
import CheriOS.Memcpy.Spec
import CheriOS.Fatfs.Diskio
import CheriOS.Namespace.Pairs
import CheriOS.Sockets.Bounds
import CheriOS.Sockets.Delivery
import CheriOS.Crt.Reloc
import CheriOS.Virtio.Ring
import CheriOS.Service.Linear
import CheriOS.Fatfs.Remount
import CheriOS.Fatfs.Getfree
import CheriOS.Fatfs.Write
import CheriOS.Fatfs.Files
