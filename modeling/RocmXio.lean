import RocmXio.Fio.WorkRing
import RocmXio.Rdma.Mlx5
import RocmXio.Rdma.IonicFlow
import RocmXio.Fio.Reporting
import RocmXio.Rdma.ErnicKernels
import RocmXio.Kmod.Quiesce
import RocmXio.Kmod.Injection
import RocmXio.Kmod.Targeting
import RocmXio.Kmod.Snapshots
import RocmXio.Kmod.ProbeLifetime
import RocmXio.Kmod.ContigAllocs
import RocmXio.Kmod.VramLifetime
import RocmXio.Sdma.HostRingSafety
import RocmXio.Rdma.BnxtCq
import RocmXio.Rdma.InlinePut
import RocmXio.Common.MmioBridge
import RocmXio.Nvme.Teardown
import RocmXio.Nvme.Doorbells
import RocmXio.Nvme.PrpPool
import RocmXio.Fio.Prefill
import RocmXio.Nvme.StatefulStart
import RocmXio.Nvme.Verify
import RocmXio.Nvme.WholeBatch
import RocmXio.Common.TcpExchangeSafety
import RocmXio.Common.PciAddress
import RocmXio.Sdma.BenchSignals
import RocmXio.Sdma.Quiet
import RocmXio.Sdma.FusedPacket
import RocmXio.Rdma.Wave
import RocmXio.Rdma.Atomics
import RocmXio.Rdma.Mlx5Doorbell
import RocmXio.Rdma.BnxtPhase
import RocmXio.Rdma.BnxtMsn
import RocmXio.Rdma.BnxtSizing
import RocmXio.Fio.OpenFile
import RocmXio.TestEp.Completion
import RocmXio.Rdma.Readiness
import RocmXio.Rdma.Topology
import RocmXio.Rdma.TwoNode
import RocmXio.Fio.Bar0Cache
import RocmXio.Tester.TransferSize
import RocmXio.Common.DataPattern
