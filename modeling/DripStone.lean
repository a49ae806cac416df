import DripStone.ActivityResult.RouterFragment
import DripStone.AirBag.CrashHandler
import DripStone.AntiShake.Clicks
import DripStone.AntiShake.Collection
import DripStone.Banner.AutoPlay
import DripStone.Base64.RoundTrip
import DripStone.Base64.Truncation
import DripStone.BaseTransform.AsFull
import DripStone.BaseTransform.LegalClasses
import DripStone.BlockCanary.BlockReport
import DripStone.BlockCanary.IdleHandlerCanary
import DripStone.BlockCanary.SamplerSchedule
import DripStone.BlockCanary.SyncBarrierDetection
import DripStone.Blur.BlurredImage
import DripStone.BufferedSink.ByteCount
import DripStone.Ceiling.StickyHeader
import DripStone.ClassName.ProcessClass
import DripStone.CustomLock.Ownership
import DripStone.DataBus.LiveDataBus
import DripStone.DragSort.DragItemTouchHelper
import DripStone.FileUtils.OnDel
import DripStone.FileUtils.QueryFilesPath
import DripStone.FloatLayout.Flow
import DripStone.FloatingWindow.Lifecycle
import DripStone.FloatingWindow.Queries
import DripStone.HandOver.Product
import DripStone.Hotfix.HotfixHelper
import DripStone.HotfixPlugin.Idempotence
import DripStone.HotfixPlugin.Selection
import DripStone.HttpClient.Conservation
import DripStone.ImageLoad.Bodies
import DripStone.ItemClicks.Clicks
import DripStone.LeakWatcher.Cleaned
import DripStone.Logger.FailedSwitch
import DripStone.Logger.RollingFiles
import DripStone.MD5Utils.SharedDigest
import DripStone.MultiTouch.Continuity
import DripStone.NetSpeed.ByteArrayScanner
import DripStone.NetSpeed.Changes
import DripStone.NetSpeed.DeviceBandwidthSampler
import DripStone.Paging.PageCounter
import DripStone.Paging.RequestIdentity
import DripStone.Paging.ViewState
import DripStone.Paging3.RepoPagingSource
import DripStone.Plugin.Launches
import DripStone.Plugin.LoadUtil
import DripStone.ReenterLock.Conditions
import DripStone.Reinforce.DexHeader
import DripStone.Reinforce.Reinforced
import DripStone.Retrofit.Independence
import DripStone.ShadowThread.Delegation
import DripStone.ShadowThread.Pairing
import DripStone.SharedInstance.OneObject
import DripStone.Skin.Processes
import DripStone.SpeedLimit.Attempts
import DripStone.TaskFlow.Advance
import DripStone.TaskFlow.CallBackOrder
import DripStone.TaskFlow.Dispose
import DripStone.TaskFlow.Growth
import DripStone.TaskFlow.Revert
import DripStone.ThreadAction.DeadLock
import DripStone.ThreadAction.JoinAndInterrupt
import DripStone.ThreadTransform.Pairing
import DripStone.Trace.MethodTiming
import DripStone.Unzip.Confinement
import DripStone.Unzip.RoundTrip
import DripStone.VCardParse.Isolation
import DripStone.Visibility.VisibilityChange
import DripStone.WatchDog.ANRWatchDog
import DripStone.WebView.Answers
