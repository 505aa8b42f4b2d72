import Btrace.Ctf.FieldClass
import Btrace.Ctf.Navigation
import Btrace.Ctf.Resolve.Context
import Btrace.Ctf.Resolve.Ptokens
import Btrace.Ctf.Resolve.FieldPath
import Btrace.Ctf.Resolve.Driver
import Btrace.Ctf.Resolve.Erase
import Btrace.Ctf.Resolve.Spelling
import Btrace.Ctf.Resolve.PtokensLoop
import Btrace.Ctf.Resolve.Target
import Btrace.Ctf.Resolve.Rebuild
import Btrace.Ctf.Resolve.Traversal
import Btrace.Ctf.Resolve.Run
import Btrace.Ctf.Resolve.Entry
import Btrace.Ctf.Resolve.Safety
import Btrace.Ctf.Resolve.Replay
import Btrace.Ctf.Resolve.Frame
import Btrace.Ctf.Resolve.Correctness
import Btrace.Ctf.Resolve.Completeness
import Btrace.Ctf.Resolve.Writes
import Btrace.Ctf.TextArraySequence
import Btrace.Ctf.TextArrayMarks
import Btrace.Ctf.PassOrder
import Btrace.Ctf.Locality
import Btrace.Ctf.ResolveSpec
import Btrace.Ctf.Frozen
import Btrace.Ctf.Objstack
import Btrace.Ctf.ObjstackRun
import Btrace.Compat.Utc
import Btrace.Compat.UtcBefore1970
import Btrace.Common.List
