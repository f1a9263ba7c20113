import KeepSse.Handle
import KeepSse.UpstreamHead
import KeepSse.HopByHop
import KeepSse.Endpoint
import KeepSse.ListHeader
import KeepSse.ProbeFlag
import KeepSse.ErrorEvent.Shape
import KeepSse.ErrorEvent.Truncation
import KeepSse.Sse.Boundary
import KeepSse.Sse.Reading
import KeepSse.Sse.Rearm
import KeepSse.Sse.Silence
import KeepSse.Sse.Abandoned
import KeepSse.Sse.Reply
import KeepSse.Sse.Explained
import KeepSse.Chain
import KeepSse.Server.Requests
import KeepSse.Server.Keepalive
import KeepSse.Server.Delivery
import KeepSse.Server.Safety
